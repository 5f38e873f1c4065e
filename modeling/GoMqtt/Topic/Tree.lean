import GoMqtt.Binary
import GoMqtt.Lib.Lists

namespace GoMqtt.Topic

open GoMqtt.Lists GoMqtt.Binary

structure Node (α : Type) where
  children : List (List UInt8 × Node α)
  values : List α

def separator : UInt8 := 47

def wildcardOne : List UInt8 := [43]

def wildcardSome : List UInt8 := [35]

def split (topic : List UInt8) : List (List UInt8) :=
  topic.splitOn separator

variable {α : Type}

def newNode : Node α := ⟨[], []⟩

namespace Node

/-- `len(node.Values) == 0 && len(node.Children) == 0`, what every removal returns. -/
def isEmpty (n : Node α) : Bool :=
  n.values.isEmpty && n.children.isEmpty

def clearValues (n : Node α) : Node α :=
  { n with values := [] }

/-- The walk that `add` and `set` share: a missing child is created on the way down, and
`leaf` gives the values of the node that the segments lead to. -/
def grow (leaf : List α → List α) : List (List UInt8) → Node α → Node α
  | [], node => { node with values := leaf node.values }
  | segment :: segments, node =>
    let child := (node.children.lookup segment).getD newNode
    { node with children := insertKey segment (grow leaf segments child) node.children }

def set (value : α) : List (List UInt8) → Node α → Node α :=
  grow fun _ => [value]

def get : List (List UInt8) → Node α → List α
  | [], node => node.values
  | segment :: segments, node =>
    match node.children.lookup segment with
    | some child => get segments child
    | none => []

def «match» (result : List α) : List (List UInt8) → Node α → List α
  | segments, node =>
    let result := match node.children.lookup wildcardSome with
      | some child => result ++ child.values
      | none => result
    match segments with
    | [] => result ++ node.values
    | segment :: rest =>
      let result := match node.children.lookup wildcardOne with
        | some child => Node.match result rest child
        | none => result
      if segment ≠ wildcardOne ∧ segment ≠ wildcardSome then
        match node.children.lookup segment with
        | some child => Node.match result rest child
        | none => result
      else result

mutual

def search (result : List α) : List (List UInt8) → Node α → List α
  | [], node => result ++ node.values
  | segment :: rest, ⟨children, values⟩ =>
    let result := if segment = wildcardSome then
      searchAll (result ++ values) (segment :: rest) children else result
    let result := if segment = wildcardOne then searchAll (result ++ values) rest children else result
    if segment ≠ wildcardOne ∧ segment ≠ wildcardSome then searchChild result segment rest children
    else result

/-- `for _, child := range node.Children { result = t.search(result, i, segments, child) }`. -/
def searchAll (result : List α) (segments : List (List UInt8)) :
    List (List UInt8 × Node α) → List α
  | [] => result
  | (_, child) :: rest => searchAll (search result segments child) segments rest

/-- The lookup `node.Children[segment]` of `search` followed by its recursive call. -/
def searchChild (result : List α) (segment : List UInt8) (segments : List (List UInt8)) :
    List (List UInt8 × Node α) → List α
  | [] => result
  | (key, child) :: rest =>
    if key = segment then search result segments child
    else searchChild result segment segments rest

end

mutual

/-- `count`, with Go's `int` arithmetic: every child is counted from the running counter. -/
def count (counter : Int) : Node α → Int
  | ⟨children, values⟩ => wrapInt (countChildren counter children + values.length)

def countChildren (counter : Int) : List (List UInt8 × Node α) → Int
  | [] => counter
  | (_, child) :: rest => countChildren (wrapInt (counter + count counter child)) rest

end

mutual

def all (result : List α) : Node α → List α
  | ⟨children, values⟩ => allChildren result children ++ values

def allChildren (result : List α) : List (List UInt8 × Node α) → List α
  | [] => result
  | (_, child) :: rest => allChildren (all result child) rest

end

variable [DecidableEq α]

/-- The first occurrence of `value` is removed without preserving order. -/
def removeValue (n : Node α) (value : α) : Node α :=
  match n.values.idxOf? value with
  | some i => { n with values := swapRemove n.values i }
  | none => n

/-- `add` leaves the values alone when `value` is among them, and appends it otherwise. -/
def add (value : α) : List (List UInt8) → Node α → Node α :=
  grow fun values => if value ∈ values then values else values ++ [value]

/-- `remove` of a value, or with `none` (Go's `nil`) the clearing of all values; the flag
says that the node is left empty, and the caller deletes it. -/
def remove (value : Option α) : List (List UInt8) → Node α → Node α × Bool
  | [], node =>
    let node := match value with
      | none => node.clearValues
      | some v => node.removeValue v
    (node, node.isEmpty)
  | segment :: segments, node =>
    match node.children.lookup segment with
    | none => (node, false)
    | some child =>
      let (child, empty) := remove value segments child
      let node := { node with
        children := if empty then eraseKey segment node.children
          else insertKey segment child node.children }
      (node, node.isEmpty)

mutual

def clear (value : α) : Node α → Node α × Bool
  | node@⟨children, _⟩ =>
    let node := { node.removeValue value with children := clearChildren value children }
    (node, node.isEmpty)

def clearChildren (value : α) : List (List UInt8 × Node α) → List (List UInt8 × Node α)
  | [] => []
  | (segment, child) :: rest =>
    if (clear value child).2 then clearChildren value rest
    else (segment, (clear value child).1) :: clearChildren value rest

end

end Node

structure Tree (α : Type) where
  root : Node α

def newTree : Tree α := ⟨newNode⟩

namespace Tree

def set (t : Tree α) (topic : List UInt8) (value : α) : Tree α :=
  ⟨t.root.set value (split topic)⟩

def get (t : Tree α) (topic : List UInt8) : List α :=
  t.root.get (split topic)

def count (t : Tree α) : Int :=
  t.root.count 0

def reset (_ : Tree α) : Tree α :=
  newTree

end Tree

variable [DecidableEq α]

def contains (list : List α) (value : α) : Bool :=
  list.any (· == value)

/-- `clean`: every value once, where it first occurs. -/
def clean (values : List α) : List α :=
  values.foldl (fun result v => if contains result v then result else result ++ [v]) []

namespace Tree

def add (t : Tree α) (topic : List UInt8) (value : α) : Tree α :=
  ⟨t.root.add value (split topic)⟩

def remove (t : Tree α) (topic : List UInt8) (value : α) : Tree α :=
  ⟨(t.root.remove (some value) (split topic)).1⟩

def empty (t : Tree α) (topic : List UInt8) : Tree α :=
  ⟨(t.root.remove none (split topic)).1⟩

def clear (t : Tree α) (value : α) : Tree α :=
  ⟨(t.root.clear value).1⟩

def «match» (t : Tree α) (topic : List UInt8) : List α :=
  clean (t.root.match [] (split topic))

def matchFirst (t : Tree α) (topic : List UInt8) : Option α :=
  (t.match topic).head?

def search (t : Tree α) (topic : List UInt8) : List α :=
  clean (t.root.search [] (split topic))

def searchFirst (t : Tree α) (topic : List UInt8) : Option α :=
  (t.search topic).head?

def all (t : Tree α) : List α :=
  clean (t.root.all [])

end Tree

inductive Op (α : Type) where
  | add (topic : List UInt8) (value : α)
  | set (topic : List UInt8) (value : α)
  | remove (topic : List UInt8) (value : α)
  | empty (topic : List UInt8)
  | clear (value : α)
  | reset

def Tree.apply (t : Tree α) : Op α → Tree α
  | .add topic value => t.add topic value
  | .set topic value => t.set topic value
  | .remove topic value => t.remove topic value
  | .empty topic => t.empty topic
  | .clear value => t.clear value
  | .reset => t.reset

/-- Two values under the sibling topics `a` and `b`: the second child is counted from the
counter that already holds the first, and that counter is added to it again, so `Count` is 3
where the nodes hold 2 values. -/
theorem count_double_counts_siblings :
    let t : Tree Nat := (newTree.add [97] 1).add [98] 2
    t.count = 3 ∧ (t.root.all []).length = 2 := by
  decide

end GoMqtt.Topic
