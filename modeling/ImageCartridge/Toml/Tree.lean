import ImageCartridge.Toml.Value

/-! A document under construction. Values are closed once written; tables stay
open, and how a table came into being decides who may still add to it. -/
namespace ImageCartridge.Toml

/-- How a table came into being: by its own header, as part of the header of
another table, or as part of a key with dots. -/
inductive Origin where
  | declared
  | implied
  | dotted
  deriving DecidableEq

/-- A node of a document. The last table of an array of tables is the one that
is still open; the earlier ones stand in reverse order. -/
inductive Node where
  | value (v : Value)
  | table (origin : Origin) (children : List (String × Node))
  | tables (earlier : List (List (String × Node))) (last : List (String × Node))

/-- The children of a table, in the order of their keys. -/
abbrev Children := List (String × Node)

def Children.replace (key : String) (node : Node) (children : Children) : Children :=
  children.map fun child => if child.1 = key then (key, node) else child

def Children.append? (key : String) (node : Node) (children : Children) : Option Children :=
  if (children.lookup key).isSome then none else some (children ++ [(key, node)])

/-- Change the table at the end of the path of a header. Tables on the way are
created if they are missing; an array of tables stands for its last table, and a
value blocks the way. -/
def alterTable (change : Children → Option Children) : List String → Children → Option Children
  | [], children => change children
  | key :: path, children =>
      match children.lookup key with
      | none => do
          let inner ← alterTable change path []
          return children ++ [(key, .table .implied inner)]
      | some (.value _) => none
      | some (.table origin inner) => do
          let inner ← alterTable change path inner
          return children.replace key (.table origin inner)
      | some (.tables earlier last) => do
          let last ← alterTable change path last
          return children.replace key (.tables earlier last)

/-- Declare the table of a header. It may have been implied by the header of one
of its parts, and by nothing else. -/
def declareTable (key : String) (children : Children) : Option Children :=
  match children.lookup key with
  | none => some (children ++ [(key, .table .declared [])])
  | some (.table .implied inner) => some (children.replace key (.table .declared inner))
  | some _ => none

def declareElement (key : String) (children : Children) : Option Children :=
  match children.lookup key with
  | none => some (children ++ [(key, .tables [] [])])
  | some (.tables earlier last) =>
      some (children.replace key (.tables (last :: earlier) []))
  | some _ => none

/-- Put a value under a key with dots. The tables on the way must have come from
such keys, or be implied ones passed through; the table that takes the value
must have come from such a key itself, unless it is the one at hand. -/
def putValue (v : Value) : List String → Children → Option Children
  | [], _ => none
  | [key], children => children.append? key (.value v)
  | key :: path, children =>
      match children.lookup key with
      | none => do
          let inner ← putValue v path []
          return children ++ [(key, .table .dotted inner)]
      | some (.value _) => none
      | some (.table origin inner) =>
          if origin = .declared || (path.length = 1 && origin ≠ .dotted) then none
          else do
            let inner ← putValue v path inner
            return children.replace key (.table origin inner)
      | some (.tables earlier last) =>
          if path.length = 1 then none
          else do
            let last ← putValue v path last
            return children.replace key (.tables earlier last)

mutual

def Node.close : Node → Value
  | .value v => v
  | .table _ children => .table (closeChildren children)
  | .tables earlier last => .array (closeTables [.table (closeChildren last)] earlier)

def closeChildren : List (String × Node) → List (String × Value)
  | [] => []
  | (key, node) :: rest => (key, node.close) :: closeChildren rest

/-- The finished tables of an array of tables, in their order, in front of those
that are finished already. -/
def closeTables (finished : List Value) : List (List (String × Node)) → List Value
  | [] => finished
  | children :: earlier => closeTables (.table (closeChildren children) :: finished) earlier

end

end ImageCartridge.Toml
