import FaAuthM8.Lib.Parsing
import FaAuthM8.Lib.Walk

/-!
# The guard against direct superuser checks

A checker of Python sources: it walks the syntax tree and reports the reads of the superuser flag that decide
something by themselves, unless they are arguments of one of the predicates that look at the role too. The
tree is what the parser makes of a source; of its classes of nodes those that the checker does not treat on
their own are one.
-/

namespace FaAuthM8.SuperuserGuard

def FLAG_ATTR : String := "is_superuser"

def ALLOWED_PREDICATES : List String :=
  ["has_superuser_privileges", "privilege_claims_are_consistent", "validate_privilege_claims",
    "find_inconsistent_privilege_claims_error"]

inductive ExprContext
  | load
  | store
  | del
deriving DecidableEq, Repr

inductive UnaryOperator
  | invert
  | not
  | uAdd
  | uSub
deriving DecidableEq, Repr

/-- The classes of nodes that have a test: it comes first among their fields. -/
inductive Branch
  | ifStmt
  | whileStmt
  | ifExp
  | assertStmt
deriving DecidableEq, Repr

/-- A node of a syntax tree. An attribute read carries its identity and its place in the source; of a keyword
argument only the value is kept. -/
inductive Node
  | name (id : String)
  | attributeNode (identity line col : Nat) (value : Node) (attr : String) (ctx : ExprContext)
  | call (func : Node) (args keywords : List Node)
  | branch (kind : Branch) (test : Node) (rest : List Node)
  | boolOp (values : List Node)
  | unaryOp (op : UnaryOperator) (operand : Node)
  | comprehension (target iter : Node) (ifs : List Node)
  | other (fields : List Node)
deriving Repr

namespace Node

/-- `iter_child_nodes`, in the order of the fields. -/
def children : Node → List Node
  | name _ => []
  | attributeNode _ _ _ value _ _ => [value]
  | call func args keywords => func :: (args ++ keywords)
  | branch _ test rest => test :: rest
  | boolOp values => values
  | unaryOp _ operand => [operand]
  | comprehension target iter ifs => target :: iter :: ifs
  | other fields => fields

mutual

def size : Node → Nat
  | name _ => 1
  | attributeNode _ _ _ value _ _ => value.size + 1
  | call func args keywords => func.size + (sizes args + sizes keywords) + 1
  | branch _ test rest => test.size + sizes rest + 1
  | boolOp values => sizes values + 1
  | unaryOp _ operand => operand.size + 1
  | comprehension target iter ifs => target.size + (iter.size + sizes ifs) + 1
  | other fields => sizes fields + 1

def sizes : List Node → Nat
  | [] => 0
  | node :: rest => node.size + sizes rest

end

/-- `ast.walk` -/
def walk (node : Node) : List Node := Walk.walkFrom children node.size [node]

def isFlagRead : Node → Bool
  | attributeNode _ _ _ _ attr .load => attr == FLAG_ATTR
  | _ => false

/-- The identity of an attribute read. -/
def identity : Node → Option Nat
  | attributeNode identity _ _ _ _ _ => some identity
  | _ => none

def calledName : Node → String
  | name id => id
  | attributeNode _ _ _ _ attr _ => attr
  | _ => ""

end Node

structure Violation where
  file : String
  line : Nat
  col : Nat
  snippet : String
deriving DecidableEq, Repr

structure DecisionVisitor where
  filename : String
  lines : List String
  violations : List Violation := []
  allowedNodes : List (Option Nat) := []
  reported : List (Option Nat) := []

namespace DecisionVisitor

/-- The line of the source, stripped; lines are counted from one. -/
def snippet (lines : List String) (line : Nat) : String :=
  if 0 < line ∧ line ≤ lines.length then
    String.ofList (Parsing.strip (lines.getD (line - 1) "").toList)
  else ""

def violation (filename : String) (lines : List String) : Node → Violation
  | .attributeNode _ line col _ _ _ => ⟨filename, line, col, snippet lines line⟩
  | _ => ⟨filename, 0, 0, ""⟩

def allowArgs (allowed : List (Option Nat)) (args : List Node) : List (Option Nat) :=
  args.foldl (fun allowed arg => if arg.isFlagRead then allowed.insert arg.identity else allowed) allowed

def recordAllowedArgs (v : DecisionVisitor) (func : Node) (args keywords : List Node) : DecisionVisitor :=
  if func.calledName ∈ ALLOWED_PREDICATES then
    { v with allowedNodes := allowArgs v.allowedNodes (args ++ keywords) }
  else v

def report (v : DecisionVisitor) (node : Node) : DecisionVisitor :=
  if node.identity ∈ v.allowedNodes ∨ node.identity ∈ v.reported then v
  else { v with
    reported := v.reported ++ [node.identity]
    violations := v.violations ++ [violation v.filename v.lines node] }

def reportRead (v : DecisionVisitor) (node : Node) : DecisionVisitor :=
  if node.isFlagRead then v.report node else v

def scanBoolean (v : DecisionVisitor) (expr : Node) : DecisionVisitor := expr.walk.foldl reportRead v

mutual

/-- `visit`: what the visitor does for the class of the node, and `generic_visit`. -/
def visit (v : DecisionVisitor) : Node → DecisionVisitor
  | .name _ => v
  | .attributeNode _ _ _ value _ _ => v.visit value
  | .call func args keywords =>
      visitAll (visitAll ((v.recordAllowedArgs func args keywords).visit func) args) keywords
  | .branch _ test rest => visitAll ((v.scanBoolean test).visit test) rest
  | .boolOp values => visitAll (values.foldl reportRead v) values
  | .unaryOp op operand => visit (if op = .not then v.reportRead operand else v) operand
  | .comprehension target iter ifs => visitAll (((ifs.foldl scanBoolean v).visit target).visit iter) ifs
  | .other fields => visitAll v fields

def visitAll (v : DecisionVisitor) : List Node → DecisionVisitor
  | [] => v
  | node :: rest => visitAll (v.visit node) rest

end

/-- The pass that collects the exemptions. -/
def recordCall (v : DecisionVisitor) : Node → DecisionVisitor
  | .call func args keywords => v.recordAllowedArgs func args keywords
  | _ => v

end DecisionVisitor

/-- `find_violations`, on the tree and the lines of a source. -/
def findViolations (filename : String) (lines : List String) (tree : Node) : List Violation :=
  let visitor : DecisionVisitor := { filename, lines }
  ((tree.walk.foldl DecisionVisitor.recordCall visitor).visit tree).violations

end FaAuthM8.SuperuserGuard
