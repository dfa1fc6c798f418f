import LieScribe.Group.Definition

/-!
# Source files

Each operation of each group becomes a function in a source file of its own.  The
function computes the temporaries of the operation's program and then fills an
array with its outputs.
-/

namespace LieScribe.Package

/-- Lines as a text, each with a line end. -/
def unlines (lines : List String) : String :=
  String.join (lines.map (· ++ "\n"))

/-- The listing of a group operation, as it appears in a package. -/
def listing (group : MotionGroup) (operation : GroupOperation)
    (target : Target) : Except Fault Listing :=
  Listing.generate
    ((group.define operation).request target true Naming.packaged)

/-- Assignments to the elements of the result. -/
def resultLines (indent ending : String) (outputs : List String) :
    List String :=
  outputs.zipIdx.map fun (value, index) =>
    indent ++ "res[" ++ Nat.repr index ++ "] = " ++ value ++ ending

/-- A sentence with the name of an operation. -/
def title (group : MotionGroup) (operation : GroupOperation) : String :=
  group.typeName ++ " " ++ operation.name ++ "."

/-- A heading with the number of the lines below it. -/
def counted (heading : String) (count : Nat) : String :=
  heading ++ " (" ++ Nat.repr count ++ ")"

/-! ## Python -/

def pythonFunction (group : MotionGroup) (operation : GroupOperation)
    (listing : Listing) : List String :=
  ["def " ++ operation.name ++ "(" ++
      String.intercalate ", " (operation.arguments.map (·.name)) ++ "):",
    "    \"\"\"",
    "    " ++ title group operation,
    "    \"\"\"",
    "    # Total ops: " ++ Nat.repr listing.totalOps,
    "",
    "    # Output array",
    "    res = [0.] * " ++ Nat.repr listing.outputs.length,
    "",
    "    # " ++ counted "Intermediate terms" listing.temporaries.length] ++
  (listing.temporaries.map fun (name, value) =>
    "    " ++ name ++ " = " ++ value) ++
  ["",
    "    # " ++ counted "Output terms" listing.outputs.length] ++
  resultLines "    " "" listing.outputs ++
  ["",
    "    return res"]

/-! ## C++ -/

/-- The type of a vector of scalars. -/
def vectorType (dim : Nat) : String :=
  "Eigen::Matrix<Scalar, " ++ Nat.repr dim ++ ", 1>"

/-- A parameter: vectors are passed by reference, scalars by value. -/
def parameter (group : MotionGroup) (argument : GroupArgument) : String :=
  match argument.dim? group with
  | some dim => "const " ++ vectorType dim ++ "& " ++ argument.name
  | none => "const Scalar " ++ argument.name

def cppFunction (group : MotionGroup) (operation : GroupOperation)
    (listing : Listing) : List String :=
  let result := vectorType (group.outputDim operation)
  ["/**",
    " * " ++ title group operation] ++
  (if GroupArgument.epsilon ∈ operation.arguments then
    [" *",
      " * epsilon must be strictly positive."]
  else
    []) ++
  [" *",
    " * Total ops: " ++ Nat.repr listing.totalOps,
    " */",
    "template <typename Scalar>",
    result ++ " " ++ operation.capitalName ++ "(" ++
      String.intercalate ", " (operation.arguments.map (parameter group)) ++
      ") \x7b",
    "  // " ++ counted "Intermediate terms" listing.temporaries.length] ++
  (listing.temporaries.map fun (name, value) =>
    "  const Scalar " ++ name ++ " = " ++ value ++ ";") ++
  ["",
    "  // " ++ counted "Output terms" listing.outputs.length,
    "  " ++ result ++ " res;"] ++
  resultLines "  " ";" listing.outputs ++
  ["",
    "  return res;",
    "\x7d"]

/-! ## Files -/

/-- The note on top of every file, as comments. -/
def header (comment : String) : List String :=
  let rule := String.ofList (List.replicate 77 '-')
  [comment ++ rule,
    comment ++
      "This file was autogenerated by geo-codegen. Do NOT modify by hand.",
    comment ++ rule]

/-- The function of a group operation. -/
def functionLines (group : MotionGroup) (operation : GroupOperation) :
    Target → Listing → List String
  | .python2 | .python3 => pythonFunction group operation
  | .cpp => cppFunction group operation

/-- A file around the lines of a function. -/
def fileLines (group : MotionGroup) (body : List String) :
    Target → List String
  | .python2 | .python3 =>
      header "# " ++ ["import numpy", "", ""] ++ body
  | .cpp =>
      header "// " ++
      ["#pragma once",
        "",
        "#include <algorithm>",
        "#include <cmath>",
        "#include <limits>",
        "",
        "#include <Eigen/Dense>",
        "",
        "namespace geo \x7b",
        "namespace " ++ group.name ++ " \x7b",
        ""] ++ body ++
      ["",
        "\x7d  // namespace " ++ group.name,
        "\x7d  // namespace geo"]

/-- The text of the function of a group operation. -/
def functionText (group : MotionGroup) (operation : GroupOperation)
    (target : Target) : Except Fault String := do
  let listing ← listing group operation target
  return unlines (functionLines group operation target listing)

/-- The text of the file of a group operation. -/
def fileText (group : MotionGroup) (operation : GroupOperation)
    (target : Target) : Except Fault String := do
  let listing ← listing group operation target
  return unlines
    (fileLines group (functionLines group operation target listing) target)

/-- The text of the file that makes a directory of Python files a package. -/
def initText (group : MotionGroup) : String :=
  unlines
    (header "# " ++
      ["\"\"\"",
        "Generated " ++ group.typeName ++ " operations.",
        "\"\"\"",
        ""] ++
      GroupOperation.all.map fun operation =>
        "from ." ++ operation.name ++ " import " ++ operation.name)

end LieScribe.Package
