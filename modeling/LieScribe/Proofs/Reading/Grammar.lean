import LieScribe.Target.Fragment

/-!
# The grammar of target expressions

Both targets share one grammar of expressions.  From the loosest level to the
tightest it has comparisons, which do not associate; sums and products, which
associate to the left; changes of sign; powers, whose exponent may carry a sign
and which therefore associate to the right; and atoms.  A text without the power
operator never uses that level.

`Grammar.read` is the reader of this grammar by recursive descent, one case for
each level.
-/

namespace LieScribe

/-- An operator between two operands. -/
inductive Operator where
  | add
  | sub
  | mul
  | div
  | pow
  | lt
  | le
  | gt
  | ge
  deriving DecidableEq, Repr

/-- The level of the grammar that an operator belongs to. -/
def Operator.precedence : Operator → Precedence
  | .add | .sub => .sum
  | .mul | .div => .product
  | .pow => .power
  | .lt | .le | .gt | .ge => .comparison

/-- An operator as it is written. -/
def Operator.sign : Operator → String
  | .add => "+"
  | .sub => "-"
  | .mul => "*"
  | .div => "/"
  | .pow => "**"
  | .lt => "<"
  | .le => "<="
  | .gt => ">"
  | .ge => ">="

/-- The tree that an expression text denotes.  Its numbers carry no sign. -/
inductive ParseTree where
  | name (text : String)
  | element (array : String) (index : Nat)
  | integer (value : Nat)
  | decimal (value : Float)
  | quoted (text : String)
  | negative (operand : ParseTree)
  | binary (operator : Operator) (left right : ParseTree)
  | call (callee : String) (arguments : List ParseTree)
  deriving Repr

namespace ParseTree

mutual

/-- The decimal numbers of a tree, from left to right. -/
def decimals : ParseTree → List Float
  | .name _ => []
  | .element _ _ => []
  | .integer _ => []
  | .decimal value => [value]
  | .quoted _ => []
  | .negative operand => operand.decimals
  | .binary _ left right => left.decimals ++ right.decimals
  | .call _ arguments => decimalsOf arguments

def decimalsOf : List ParseTree → List Float
  | [] => []
  | tree :: others => tree.decimals ++ decimalsOf others

end

mutual

/-- A tree and all trees below it. -/
def nodes : ParseTree → List ParseTree
  | .negative operand => .negative operand :: operand.nodes
  | .binary operator left right => .binary operator left right :: (left.nodes ++ right.nodes)
  | .call callee arguments => .call callee arguments :: nodesOf arguments
  | tree => [tree]

def nodesOf : List ParseTree → List ParseTree
  | [] => []
  | tree :: others => tree.nodes ++ nodesOf others

end

theorem mem_nodesOf {node : ParseTree} {trees : List ParseTree} :
    node ∈ nodesOf trees ↔ ∃ tree ∈ trees, node ∈ tree.nodes := by
  induction trees with
  | nil =>
      simp [nodesOf]
  | cons first others inductionHypothesis =>
      simp [nodesOf, inductionHypothesis]

theorem mem_nodes_self (tree : ParseTree) : tree ∈ tree.nodes := by
  cases tree <;> rw [nodes] <;> first | exact List.mem_cons_self | (intros; contradiction)

end ParseTree

inductive Token where
  | integer (value : Nat)
  | decimal (value : Float)
  | quoted (text : String)
  | name (text : String)
  | operator (operator : Operator)
  | opening
  | closing
  | openingBracket
  | closingBracket
  | comma
  deriving Repr

/-- A result together with what is left, provided that something was taken. -/
def advance {α β : Type} (items : List α) :
    Option (β × List α) → Option (β × { rest : List α // rest.length < items.length })
  | some (result, rest) =>
      if shorter : rest.length < items.length then
        some (result, ⟨rest, shorter⟩)
      else
        none
  | none => none

theorem advance_append {α β : Type} {items : List α} (result : β) (rest : List α)
    (nonempty : items ≠ []) :
    ∃ shorter, advance (items ++ rest) (some (result, rest)) =
      some (result, ⟨rest, shorter⟩) := by
  have positive := List.length_pos_iff.mpr nonempty
  have shorter : rest.length < (items ++ rest).length := by
    rw [List.length_append]
    omega
  exact ⟨shorter, by simp only [advance, dif_pos shorter]⟩

/-- The next tighter level of the grammar. -/
def Precedence.next : Precedence → Precedence
  | .comparison => .sum
  | .sum => .product
  | .product => .unary
  | .unary => .power
  | .power => .atom
  | .atom => .atom

namespace Precedence

theorem comparison_le (level : Precedence) : comparison.level ≤ level.level := by
  cases level <;> decide

theorem le_atom (level : Precedence) : level.level ≤ atom.level := by
  cases level <;> decide

theorem next_le {looser tighter : Precedence} (lower : looser.level < tighter.level) :
    looser.level < looser.next.level ∧ looser.next.level ≤ tighter.level := by
  revert lower
  cases looser <;> cases tighter <;> decide

end Precedence

namespace Grammar

mutual

/-- Read an expression of the given level from the front of a list of tokens. -/
def read (level : Precedence) (tokens : List Token) :
    Option (ParseTree × List Token) :=
  match level, tokens with
  | .comparison, tokens => do
      let (left, ⟨rest, shorter⟩) ← advance tokens (read .sum tokens)
      match rest, shorter with
      | .operator operator :: others, _ =>
          if operator.precedence = .comparison then do
            let (right, remaining) ← read .sum others
            some (.binary operator left right, remaining)
          else
            some (left, .operator operator :: others)
      | others, _ => some (left, others)
  | .sum, tokens => do
      let (first, ⟨rest, _⟩) ← advance tokens (read .product tokens)
      goOn .sum first rest
  | .product, tokens => do
      let (first, ⟨rest, _⟩) ← advance tokens (read .unary tokens)
      goOn .product first rest
  | .unary, .operator .sub :: others => do
      let (operand, remaining) ← read .unary others
      some (.negative operand, remaining)
  | .unary, tokens => read .power tokens
  | .power, tokens => do
      let (base, ⟨rest, shorter⟩) ← advance tokens (read .atom tokens)
      match rest, shorter with
      | .operator .pow :: others, _ => do
          let (exponent, remaining) ← read .unary others
          some (.binary .pow base exponent, remaining)
      | others, _ => some (base, others)
  | .atom, .integer value :: others => some (.integer value, others)
  | .atom, .decimal value :: others => some (.decimal value, others)
  | .atom, .quoted text :: others => some (.quoted text, others)
  | .atom, .opening :: others => do
      match ← read .comparison others with
      | (tree, .closing :: remaining) => some (tree, remaining)
      | _ => none
  | .atom, .name array :: .openingBracket :: .integer index :: .closingBracket :: others =>
      some (.element array index, others)
  | .atom, .name callee :: .opening :: .closing :: others =>
      some (.call callee [], others)
  | .atom, .name callee :: .opening :: others => do
      let (arguments, remaining) ← readArguments others
      some (.call callee arguments, remaining)
  | .atom, .name text :: others => some (.name text, others)
  | .atom, _ => none
termination_by (tokens.length, 100 - level.level)
decreasing_by
  all_goals simp_wf
  all_goals grind [Precedence.level]

/-- Join further operands of a level that associates to the left. -/
def goOn (level : Precedence) (left : ParseTree) (tokens : List Token) :
    Option (ParseTree × List Token) :=
  match tokens with
  | .operator operator :: others =>
      if operator.precedence = level then do
        let (right, ⟨rest, _⟩) ← advance others (read level.next others)
        goOn level (.binary operator left right) rest
      else
        some (left, .operator operator :: others)
  | others => some (left, others)
termination_by (tokens.length, 0)

/-- Read the arguments of a call, up to its closing parenthesis. -/
def readArguments (tokens : List Token) : Option (List ParseTree × List Token) := do
  let (first, ⟨rest, shorter⟩) ← advance tokens (read .comparison tokens)
  match rest, shorter with
  | .comma :: others, _ => do
      let (further, remaining) ← readArguments others
      some (first :: further, remaining)
  | .closing :: remaining, _ => some ([first], remaining)
  | _, _ => none
termination_by (tokens.length, 101)
decreasing_by
  all_goals grind [Precedence.level]

end

/-- Read a whole list of tokens as one expression. -/
def readAll (tokens : List Token) : Option ParseTree :=
  match read .comparison tokens with
  | some (tree, []) => some tree
  | _ => none

/-! ## Where an expression ends -/

/-- An expression of the given level can end in front of these tokens: they do not
go on with an operator that binds as tightly, and do not apply a name. -/
def Ends (level : Precedence) : List Token → Prop
  | .operator operator :: _ => operator.precedence.level < level.level
  | .opening :: _ => False
  | .openingBracket :: _ => False
  | _ => True

theorem Ends.mono {looser tighter : Precedence} {rest : List Token}
    (loose : looser.level ≤ tighter.level) (ends : Ends looser rest) :
    Ends tighter rest := by
  unfold Ends at ends ⊢
  split at ends
  · exact Nat.lt_of_lt_of_le ends loose
  all_goals trivial

/-- No operator is of the level of a change of sign. -/
theorem Ends.unary_of_power {rest : List Token} (ends : Ends .power rest) :
    Ends .unary rest := by
  unfold Ends at ends ⊢
  split at ends
  case h_1 operator _ =>
      cases operator <;> simp_all [Operator.precedence, Precedence.level]
  all_goals trivial

/-- Every operator goes on with a comparison. -/
theorem not_ends_comparison (operator : Operator) (others : List Token) :
    ¬ Ends .comparison (.operator operator :: others) := by
  cases operator <;> simp [Ends, Operator.precedence, Precedence.level]

theorem goOn_of_ends {level : Precedence} {rest : List Token} (tree : ParseTree)
    (ends : Ends level rest) :
    goOn level tree rest = some (tree, rest) := by
  rw [goOn.eq_def]
  split
  · next operator others =>
      have looser : operator.precedence.level < level.level := ends
      have different : operator.precedence ≠ level := by
        intro same
        rw [same] at looser
        exact Nat.lt_irrefl _ looser
      rw [if_neg different]
  · rfl

/-! ## Reading at a level -/

/-- The tokens are an expression of a level that reads as the tree, whatever follows
them.  At a level that associates to the left the reader goes on from there. -/
def ReadsAs (level : Precedence) (tokens : List Token) (tree : ParseTree) : Prop :=
  tokens ≠ [] ∧
    match level with
    | .sum | .product =>
        ∀ rest, Ends level.next rest →
          read level (tokens ++ rest) = goOn level tree rest
    | _ =>
        ∀ rest, Ends level rest → read level (tokens ++ rest) = some (tree, rest)

namespace ReadsAs

variable {level : Precedence} {tokens leftTokens rightTokens : List Token}
  {tree leftTree rightTree : ParseTree}

theorem whole (reads : ReadsAs level tokens tree) {rest : List Token}
    (ends : Ends level rest) :
    read level (tokens ++ rest) = some (tree, rest) := by
  cases level with
  | sum =>
      rw [reads.2 rest (ends.mono (by decide))]
      exact goOn_of_ends tree ends
  | product =>
      rw [reads.2 rest (ends.mono (by decide))]
      exact goOn_of_ends tree ends
  | comparison | unary | power | atom =>
      exact reads.2 rest ends

theorem advance_whole (reads : ReadsAs level tokens tree) {rest : List Token}
    (ends : Ends level rest) :
    ∃ shorter, advance (tokens ++ rest) (read level (tokens ++ rest)) =
      some (tree, ⟨rest, shorter⟩) := by
  rw [reads.whole ends]
  exact advance_append tree rest reads.1

/-! ### From a level to the looser ones -/

/-- An operand of a power does not start with a sign. -/
theorem head_ne_sub (reads : ReadsAs .power tokens tree) (others : List Token) :
    tokens ≠ .operator .sub :: others := by
  intro signed
  have whole : read .power (tokens ++ []) = some (tree, []) :=
    reads.whole trivial
  have refused : read .atom (.operator .sub :: others) = none := by
    rw [read] <;> simp
  rw [signed, List.append_nil, read, refused] at whole
  cases whole

theorem lower_comparison (reads : ReadsAs .sum tokens tree) :
    ReadsAs .comparison tokens tree := by
  refine ⟨reads.1, fun rest ends => ?_⟩
  obtain ⟨shorter, advanced⟩ :=
    reads.advance_whole (ends.mono (by decide) : Ends .sum rest)
  rw [read, advanced]
  simp only [Option.bind_eq_bind, Option.bind_some]
  split
  · exact absurd ends (not_ends_comparison _ _)
  · rfl

theorem lower_sum (reads : ReadsAs .product tokens tree) :
    ReadsAs .sum tokens tree := by
  refine ⟨reads.1, fun rest ends => ?_⟩
  obtain ⟨shorter, advanced⟩ := reads.advance_whole ends
  rw [read, advanced]
  rfl

theorem lower_product (reads : ReadsAs .unary tokens tree) :
    ReadsAs .product tokens tree := by
  refine ⟨reads.1, fun rest ends => ?_⟩
  obtain ⟨shorter, advanced⟩ := reads.advance_whole ends
  rw [read, advanced]
  rfl

theorem lower_unary (reads : ReadsAs .power tokens tree) :
    ReadsAs .unary tokens tree := by
  refine ⟨reads.1, fun rest ends => ?_⟩
  have unsigned : ∀ others, tokens ++ rest = .operator .sub :: others → False := by
    intro others signed
    obtain ⟨head, tail, rfl⟩ := List.exists_cons_of_ne_nil reads.1
    have headSigned : head = .operator .sub := (List.cons.inj signed).1
    exact reads.head_ne_sub tail (by rw [headSigned])
  rw [read.eq_5 _ unsigned]
  exact reads.whole (ends.mono (by decide))

theorem lower_power (reads : ReadsAs .atom tokens tree) :
    ReadsAs .power tokens tree := by
  refine ⟨reads.1, fun rest ends => ?_⟩
  obtain ⟨shorter, advanced⟩ :=
    reads.advance_whole (ends.mono (by decide) : Ends .atom rest)
  rw [read, advanced]
  simp only [Option.bind_eq_bind, Option.bind_some]
  split
  · exact absurd ends (by simp [Ends, Operator.precedence])
  · rfl

theorem lower (reads : ReadsAs level.next tokens tree) :
    ReadsAs level tokens tree := by
  cases level with
  | comparison =>
      exact lower_comparison reads
  | sum =>
      exact lower_sum reads
  | product =>
      exact lower_product reads
  | unary =>
      exact lower_unary reads
  | power =>
      exact lower_power reads
  | atom =>
      exact reads

theorem mono {level looser : Precedence} (loose : looser.level ≤ level.level)
    (reads : ReadsAs level tokens tree) :
    ReadsAs looser tokens tree := by
  by_cases lower : looser.level < level.level
  · have step := Precedence.next_le lower
    exact (mono step.2 reads).lower
  · have same : looser = level := by
      have equal : looser.level = level.level := by omega
      revert equal
      cases looser <;> cases level <;> decide
    exact same ▸ reads
termination_by level.level - looser.level

/-! ### Joining operands -/

theorem joined {operator : Operator}
    (associates : operator.precedence = .sum ∨ operator.precedence = .product)
    (left : ReadsAs operator.precedence leftTokens leftTree)
    (right : ReadsAs operator.precedence.next rightTokens rightTree) :
    ReadsAs operator.precedence (leftTokens ++ .operator operator :: rightTokens)
      (.binary operator leftTree rightTree) := by
  have further {rest : List Token} (ends : Ends operator.precedence.next rest) :
      goOn operator.precedence leftTree (.operator operator :: (rightTokens ++ rest)) =
        goOn operator.precedence (.binary operator leftTree rightTree) rest := by
    obtain ⟨shorter, advanced⟩ := right.advance_whole ends
    rw [goOn, if_pos rfl, advanced]
    rfl
  have follows (others : List Token) :
      Ends operator.precedence.next (.operator operator :: others) := by
    rcases associates with level | level <;>
      simp [Ends, level, Precedence.next, Precedence.level]
  refine ⟨by simp, ?_⟩
  generalize operator.precedence = level at *
  rcases associates with rfl | rfl
  all_goals
    intro rest ends
    rw [List.append_assoc, List.cons_append, left.2 _ (follows _)]
    exact further ends

theorem comparison {operator : Operator} (compares : operator.precedence = .comparison)
    (left : ReadsAs .sum leftTokens leftTree)
    (right : ReadsAs .sum rightTokens rightTree) :
    ReadsAs .comparison (leftTokens ++ .operator operator :: rightTokens)
      (.binary operator leftTree rightTree) := by
  refine ⟨by simp, fun rest ends => ?_⟩
  have follows : Ends .sum (.operator operator :: (rightTokens ++ rest)) := by
    simp [Ends, compares, Precedence.level]
  obtain ⟨shorter, advanced⟩ := left.advance_whole follows
  rw [List.append_assoc, List.cons_append, read, advanced]
  simp only [Option.bind_eq_bind, Option.bind_some, if_pos compares]
  rw [right.whole (ends.mono (by decide))]
  rfl

theorem negative (operand : ReadsAs .unary tokens tree) :
    ReadsAs .unary (.operator .sub :: tokens) (.negative tree) := by
  refine ⟨by simp, fun rest ends => ?_⟩
  rw [List.cons_append, read, operand.whole ends]
  rfl

theorem power (base : ReadsAs .atom leftTokens leftTree)
    (exponent : ReadsAs .unary rightTokens rightTree) :
    ReadsAs .power (leftTokens ++ .operator .pow :: rightTokens)
      (.binary .pow leftTree rightTree) := by
  refine ⟨by simp, fun rest ends => ?_⟩
  have follows : Ends .atom (.operator .pow :: (rightTokens ++ rest)) := by
    simp [Ends, Operator.precedence, Precedence.level]
  obtain ⟨shorter, advanced⟩ := base.advance_whole follows
  rw [List.append_assoc, List.cons_append, read, advanced]
  simp only [Option.bind_eq_bind, Option.bind_some]
  rw [exponent.whole ends.unary_of_power]
  rfl

theorem parenthesized (inner : ReadsAs .comparison tokens tree) :
    ReadsAs .atom (.opening :: (tokens ++ [.closing])) tree := by
  refine ⟨by simp, fun rest _ => ?_⟩
  have follows : Ends .comparison (.closing :: rest) := trivial
  rw [List.cons_append, List.append_assoc, List.singleton_append, read,
    inner.whole follows]
  rfl

theorem integer (value : Nat) : ReadsAs .atom [.integer value] (.integer value) := by
  refine ⟨by simp, fun rest _ => ?_⟩
  rw [List.singleton_append, read]

theorem decimal (value : Float) : ReadsAs .atom [.decimal value] (.decimal value) := by
  refine ⟨by simp, fun rest _ => ?_⟩
  rw [List.singleton_append, read]

theorem quoted (text : String) : ReadsAs .atom [.quoted text] (.quoted text) := by
  refine ⟨by simp, fun rest _ => ?_⟩
  rw [List.singleton_append, read]

theorem name (text : String) : ReadsAs .atom [.name text] (.name text) := by
  refine ⟨by simp, fun rest ends => ?_⟩
  rw [List.singleton_append, read]
  all_goals
    intros
    simp_all [Ends]

theorem element (array : String) (index : Nat) :
    ReadsAs .atom [.name array, .openingBracket, .integer index, .closingBracket]
      (.element array index) := by
  refine ⟨by simp, fun rest _ => ?_⟩
  simp only [List.cons_append, List.nil_append]
  rw [read]

end ReadsAs

/-! ## Calls -/

/-- The tokens in front of the closing parenthesis of a call are its arguments. -/
def ReadsArguments (tokens : List Token) (trees : List ParseTree) : Prop :=
  ∀ rest, readArguments (tokens ++ .closing :: rest) = some (trees, rest)

theorem read_closing (level : Precedence) (rest : List Token) :
    read level (.closing :: rest) = none := by
  have atom : read .atom (.closing :: rest) = none := by
    rw [read] <;> simp
  have power : read .power (.closing :: rest) = none := by
    rw [read, atom]
    rfl
  have unary : read .unary (.closing :: rest) = none := by
    rw [read, power]
    simp
  have product : read .product (.closing :: rest) = none := by
    rw [read, unary]
    rfl
  have sum : read .sum (.closing :: rest) = none := by
    rw [read, product]
    rfl
  cases level with
  | comparison =>
      rw [read, sum]
      rfl
  | sum =>
      exact sum
  | product =>
      exact product
  | unary =>
      exact unary
  | power =>
      exact power
  | atom =>
      exact atom

namespace ReadsArguments

variable {tokens others : List Token} {tree : ParseTree} {trees : List ParseTree}

theorem single (reads : ReadsAs .comparison tokens tree) :
    ReadsArguments tokens [tree] := by
  intro rest
  have follows : Ends .comparison (.closing :: rest) := trivial
  obtain ⟨shorter, advanced⟩ := reads.advance_whole follows
  rw [readArguments, advanced]
  rfl

theorem cons (reads : ReadsAs .comparison tokens tree)
    (further : ReadsArguments others trees) :
    ReadsArguments (tokens ++ .comma :: others) (tree :: trees) := by
  intro rest
  have follows : Ends .comparison (.comma :: (others ++ .closing :: rest)) := trivial
  obtain ⟨shorter, advanced⟩ := reads.advance_whole follows
  rw [List.append_assoc, List.cons_append, readArguments, advanced]
  simp only [Option.bind_eq_bind, Option.bind_some]
  rw [further rest]
  rfl

theorem call (arguments : ReadsArguments tokens trees) (callee : String) :
    ReadsAs .atom (.name callee :: .opening :: (tokens ++ [.closing]))
      (.call callee trees) := by
  refine ⟨by simp, fun rest _ => ?_⟩
  have given := arguments rest
  -- An argument list never starts by closing the call.
  have started : ∀ others, tokens ++ .closing :: rest = .closing :: others → False := by
    intro others closed
    rw [closed, readArguments, read_closing] at given
    cases given
  rw [List.cons_append, List.cons_append, List.append_assoc, List.singleton_append,
    read.eq_13 _ _ started, given]
  rfl

end ReadsArguments

theorem ReadsAs.emptyCall (callee : String) :
    ReadsAs .atom [.name callee, .opening, .closing] (.call callee []) := by
  refine ⟨by simp, fun rest _ => ?_⟩
  simp only [List.cons_append, List.nil_append]
  rw [read]

theorem ReadsAs.readAll {tokens : List Token} {tree : ParseTree}
    (reads : ReadsAs .comparison tokens tree) :
    Grammar.readAll tokens = some tree := by
  have whole : read .comparison (tokens ++ []) = some (tree, []) :=
    reads.whole trivial
  rw [Grammar.readAll, ← List.append_nil tokens, whole]

end Grammar

end LieScribe
