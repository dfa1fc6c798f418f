import LieScribe.Proofs.Groups.Operations

/-!
# Motions

A motion is a rotation followed by a displacement.  Composing motions turns the displacement of
the second by the rotation of the first.  What makes motions a group is said about rotations
only: vectors are turned by a product as by its factors, and reverse rotations are inverses.
Both may hold for some rotations and fail for others, so the laws name the rotations they need.

A group of coordinate vectors represents motions if its operations are those of motions in
coordinates; the laws then hold for coordinates as well.
-/

namespace LieScribe

@[ext]
structure Motion (R V : Type) where
  rotation : R
  displacement : V

/-- How rotations turn vectors, and the rotation the other way. -/
structure Turning (R V : Type) [Monoid R] [AddCommGroup V] where
  turn : R → V →+ V
  reverse : R → R
  turn_one : ∀ vector, turn 1 vector = vector

namespace Turning

variable {R V : Type} [Monoid R] [AddCommGroup V] (turning : Turning R V)

/-- Vectors are turned by the product as by one factor after the other. -/
def Splits (p q : R) : Prop :=
  ∀ vector, turning.turn (p * q) vector = turning.turn p (turning.turn q vector)

/-- Among these rotations products split and the other way round is an inverse. -/
structure Proper (proper : Submonoid R) : Prop where
  splits : ∀ p ∈ proper, ∀ q ∈ proper, turning.Splits p q
  reverse_mem : ∀ p ∈ proper, turning.reverse p ∈ proper
  mul_reverse : ∀ p ∈ proper, p * turning.reverse p = 1
  reverse_mul : ∀ p ∈ proper, turning.reverse p * p = 1

/-! ## Laws of motions -/

def identity : Motion R V :=
  ⟨1, 0⟩

def inverse (a : Motion R V) : Motion R V :=
  ⟨turning.reverse a.rotation, -turning.turn (turning.reverse a.rotation) a.displacement⟩

def compose (a b : Motion R V) : Motion R V :=
  ⟨a.rotation * b.rotation, a.displacement + turning.turn a.rotation b.displacement⟩

variable {turning} {proper : Submonoid R} {a b : Motion R V}

theorem compose_assoc (splits : turning.Splits a.rotation b.rotation) (c : Motion R V) :
    turning.compose (turning.compose a b) c = turning.compose a (turning.compose b c) := by
  ext
  · exact mul_assoc _ _ _
  · simp only [compose, splits c.displacement, map_add, add_assoc]

theorem identity_compose (a : Motion R V) : turning.compose identity a = a := by
  ext
  · exact one_mul _
  · simp only [compose, identity, turning.turn_one, zero_add]

theorem compose_identity (a : Motion R V) : turning.compose a identity = a := by
  ext
  · exact mul_one _
  · simp only [compose, identity, map_zero, add_zero]

namespace Proper

/-- A reverse rotation turns vectors back. -/
theorem turn_turn_reverse (isProper : turning.Proper proper) {p : R} (member : p ∈ proper)
    (vector : V) : turning.turn p (turning.turn (turning.reverse p) vector) = vector := by
  rw [← isProper.splits p member _ (isProper.reverse_mem p member), isProper.mul_reverse p member,
    turning.turn_one]

theorem turn_reverse_turn (isProper : turning.Proper proper) {p : R} (member : p ∈ proper)
    (vector : V) : turning.turn (turning.reverse p) (turning.turn p vector) = vector := by
  rw [← isProper.splits _ (isProper.reverse_mem p member) p member, isProper.reverse_mul p member,
    turning.turn_one]

theorem reverse_mul_rev (isProper : turning.Proper proper) {p q : R} (left : p ∈ proper)
    (right : q ∈ proper) :
    turning.reverse (p * q) = turning.reverse q * turning.reverse p := by
  have cancels : turning.reverse q * turning.reverse p * (p * q) = 1 := by
    rw [mul_assoc, ← mul_assoc _ p, isProper.reverse_mul p left, one_mul,
      isProper.reverse_mul q right]
  exact (left_inv_eq_right_inv cancels
    (isProper.mul_reverse _ (proper.mul_mem left right))).symm

theorem compose_inverse (isProper : turning.Proper proper) (member : a.rotation ∈ proper) :
    turning.compose a (turning.inverse a) = identity := by
  ext
  · exact isProper.mul_reverse _ member
  · simp only [compose, inverse, identity, map_neg, isProper.turn_turn_reverse member,
      add_neg_cancel]

theorem inverse_compose (isProper : turning.Proper proper) (member : a.rotation ∈ proper) :
    turning.compose (turning.inverse a) a = identity := by
  ext
  · exact isProper.reverse_mul _ member
  · simp only [compose, inverse, identity, neg_add_cancel]

theorem compose_compose_inverse (isProper : turning.Proper proper) (member : a.rotation ∈ proper)
    (b : Motion R V) : turning.compose a (turning.compose (turning.inverse a) b) = b := by
  have splits : turning.Splits a.rotation (turning.inverse a).rotation :=
    isProper.splits _ member _ (isProper.reverse_mem _ member)
  rw [← compose_assoc splits, isProper.compose_inverse member, identity_compose]

theorem inverse_compose_rev (isProper : turning.Proper proper) (left : a.rotation ∈ proper)
    (right : b.rotation ∈ proper) :
    turning.inverse (turning.compose a b) =
      turning.compose (turning.inverse b) (turning.inverse a) := by
  have splits : turning.Splits (turning.reverse b.rotation) (turning.reverse a.rotation) :=
    isProper.splits _ (isProper.reverse_mem _ right) _ (isProper.reverse_mem _ left)
  ext
  · exact isProper.reverse_mul_rev left right
  · simp only [compose, inverse, isProper.reverse_mul_rev left right, splits _, map_add, map_neg,
      isProper.turn_reverse_turn left, neg_add_rev]

end Proper

/-! ## Rotations alone -/

variable (turning)

/-- Rotations that have nothing to turn. -/
def still : Turning R PUnit where
  turn _ := 0
  reverse := turning.reverse
  turn_one _ := rfl

theorem splits_still (p q : R) : turning.still.Splits p q :=
  fun _ => rfl

theorem Proper.still {turning : Turning R V} (isProper : turning.Proper proper) :
    turning.still.Proper proper :=
  ⟨fun p _ q _ => turning.splits_still p q, isProper.reverse_mem, isProper.mul_reverse,
    isProper.reverse_mul⟩

end Turning

/-! ## Motions in coordinates -/

namespace MotionGroup

def isPlanar : MotionGroup → Bool
  | .rot2 | .pose2 => true
  | .rot3 | .pose3 => false

/-- The squared length of the rotation of an element, which is a complex number in the plane
and a quaternion in space. -/
def squaredNorm {K : Type} [Field K] (group : MotionGroup) (a : group.Element K) : K :=
  if group.isPlanar then
    a 0 ^ 2 + a 1 ^ 2
  else
    a 0 ^ 2 + a 1 ^ 2 + a 2 ^ 2 + a 3 ^ 2

/-- The operations obey the laws of a group among the given elements.  Where a law does not
invert an element, that element may be any. -/
structure IsGroupOn {K : Type} (group : MotionGroup) (arithmetic : Arithmetic K)
    (members : Set (group.Element K)) : Prop where
  identity_mem : group.identity arithmetic ∈ members
  inverse_mem : ∀ a ∈ members, group.inverse arithmetic a ∈ members
  compose_mem : ∀ a ∈ members, ∀ b ∈ members, group.compose arithmetic a b ∈ members
  between_mem : ∀ a ∈ members, ∀ b ∈ members, group.between arithmetic a b ∈ members
  compose_assoc : ∀ a ∈ members, ∀ b ∈ members, ∀ c,
    group.compose arithmetic (group.compose arithmetic a b) c =
      group.compose arithmetic a (group.compose arithmetic b c)
  identity_compose : ∀ a, group.compose arithmetic (group.identity arithmetic) a = a
  compose_identity : ∀ a, group.compose arithmetic a (group.identity arithmetic) = a
  compose_inverse : ∀ a ∈ members,
    group.compose arithmetic a (group.inverse arithmetic a) = group.identity arithmetic
  inverse_compose : ∀ a ∈ members,
    group.compose arithmetic (group.inverse arithmetic a) a = group.identity arithmetic
  compose_between : ∀ a ∈ members, ∀ b,
    group.compose arithmetic a (group.between arithmetic a b) = b
  inverse_compose_rev : ∀ a ∈ members, ∀ b ∈ members,
    group.inverse arithmetic (group.compose arithmetic a b) =
      group.compose arithmetic (group.inverse arithmetic b) (group.inverse arithmetic a)

/-- The elements of a group are motions in coordinates, and so are its operations. -/
structure Represents {K R V : Type} [Monoid R] [AddCommGroup V] (group : MotionGroup)
    (arithmetic : Arithmetic K) (turning : Turning R V) (motion : group.Element K ≃ Motion R V) :
    Prop where
  identity : group.identity arithmetic = motion.symm Turning.identity
  inverse : ∀ a, group.inverse arithmetic a = motion.symm (turning.inverse (motion a))
  compose : ∀ a b,
    group.compose arithmetic a b = motion.symm (turning.compose (motion a) (motion b))

namespace Represents

variable {K R V : Type} [Monoid R] [AddCommGroup V] {group : MotionGroup}
  {arithmetic : Arithmetic K} {turning : Turning R V} {motion : group.Element K ≃ Motion R V}
  {proper : Submonoid R} {a b : group.Element K}

theorem rotation_compose (represents : group.Represents arithmetic turning motion)
    (a b : group.Element K) :
    (motion (group.compose arithmetic a b)).rotation =
      (motion a).rotation * (motion b).rotation := by
  rw [represents.compose, Equiv.apply_symm_apply, Turning.compose]

theorem rotation_inverse (represents : group.Represents arithmetic turning motion)
    (a : group.Element K) :
    (motion (group.inverse arithmetic a)).rotation = turning.reverse (motion a).rotation := by
  rw [represents.inverse, Equiv.apply_symm_apply, Turning.inverse]

theorem compose_assoc (represents : group.Represents arithmetic turning motion)
    (splits : turning.Splits (motion a).rotation (motion b).rotation) (c : group.Element K) :
    group.compose arithmetic (group.compose arithmetic a b) c =
      group.compose arithmetic a (group.compose arithmetic b c) := by
  simp only [represents.compose, Equiv.apply_symm_apply, Turning.compose_assoc splits]

/-- The elements with proper rotations form a group. -/
theorem isGroupOn (represents : group.Represents arithmetic turning motion)
    (isProper : turning.Proper proper) :
    group.IsGroupOn arithmetic {a | (motion a).rotation ∈ proper} := by
  have inverse_mem (a : group.Element K) (member : (motion a).rotation ∈ proper) :
      (motion (group.inverse arithmetic a)).rotation ∈ proper := by
    rw [represents.rotation_inverse]
    exact isProper.reverse_mem _ member
  have compose_mem (a b : group.Element K) (left : (motion a).rotation ∈ proper)
      (right : (motion b).rotation ∈ proper) :
      (motion (group.compose arithmetic a b)).rotation ∈ proper := by
    rw [represents.rotation_compose]
    exact proper.mul_mem left right
  constructor
  case identity_mem =>
    rw [represents.identity, Set.mem_ofPred_eq, Equiv.apply_symm_apply]
    exact proper.one_mem
  case inverse_mem => exact inverse_mem
  case compose_mem => exact fun a left b right => compose_mem a b left right
  case between_mem =>
    intro a left b right
    rw [between_eq]
    exact compose_mem _ b (inverse_mem a left) right
  case compose_assoc =>
    exact fun a left b right => represents.compose_assoc (isProper.splits _ left _ right)
  case identity_compose =>
    intro a
    rw [represents.compose, represents.identity, Equiv.apply_symm_apply,
      Turning.identity_compose, Equiv.symm_apply_apply]
  case compose_identity =>
    intro a
    rw [represents.compose, represents.identity, Equiv.apply_symm_apply,
      Turning.compose_identity, Equiv.symm_apply_apply]
  case compose_inverse =>
    intro a member
    rw [represents.compose, represents.inverse, Equiv.apply_symm_apply,
      isProper.compose_inverse member, represents.identity]
  case inverse_compose =>
    intro a member
    rw [represents.compose, represents.inverse, Equiv.apply_symm_apply,
      isProper.inverse_compose member, represents.identity]
  case compose_between =>
    intro a member b
    rw [between_eq, represents.compose, represents.compose, represents.inverse,
      Equiv.apply_symm_apply, Equiv.apply_symm_apply, isProper.compose_compose_inverse member,
      Equiv.symm_apply_apply]
  case inverse_compose_rev =>
    intro a left b right
    simp only [represents.inverse, represents.compose, Equiv.apply_symm_apply,
      isProper.inverse_compose_rev left right]

end Represents

end MotionGroup

end LieScribe
