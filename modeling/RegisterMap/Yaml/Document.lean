import RegisterMap.Yaml.Event

/-!
# Document — the nodes of the first document

The events of a document as a tree. Where a fault ends the events, the tree ends in a *cut*: every
collection that is open there has the cut as its last item. A reader that walks the tree in the
order of the text meets the cut exactly where the text goes wrong.

## § Anchors

An anchor gets the number of different names that were set before it, and an alias refers to the
number that its name has at that point. When two anchors have one number, the later one is meant.
-/

namespace RegisterMap.Yaml

/-- **Node** — a scalar, a collection, an alias, or the place where the text goes wrong. The items
of a mapping are its keys and values in turn. -/
inductive Node where
  | scalar (tag : Option Bytes) (style : Style) (text : List Char)
  | sequence (tag : Option Bytes) (items : List Node)
  | mapping (tag : Option Bytes) (items : List Node)
  | alias (target : Nat)
  | cut
  | void
  deriving Repr

/-- **Target** — a node with an anchor: the number of the anchor and its place among all anchors. -/
structure Target where
  number : Nat
  place : Nat
  node : Node

/-- **Document** — a root, the nodes that aliases may mean, the count of its events, its fault. -/
structure Document where
  root : Node
  targets : List Target
  size : Nat
  fault : Option Fault

namespace Document

/-- **Frame** — a collection that is open. -/
structure Frame where
  isMapping : Bool
  tag : Option Bytes
  /-- The number and the place of its anchor. -/
  anchor : Option (Nat × Nat)
  /-- Its items, last one first. -/
  items : List Node

/-- **close** — the node of a collection. -/
def Frame.close (f : Frame) : Node :=
  if f.isMapping then .mapping f.tag f.items.reverse else .sequence f.tag f.items.reverse

/-- **Builder** — a tree under construction. -/
structure Builder where
  frames : List Frame := []
  root : Option Node := none
  /-- The numbers of anchors by name, the last one set first. -/
  numbers : List (Name × Nat) := []
  /-- How many different names anchors have. -/
  names : Nat := 0
  /-- How many anchors have been set. -/
  anchors : Nat := 0
  targets : List Target := []
  size : Nat := 0
  fault : Option Fault := none

namespace Builder

/-- **add** — a complete node goes into the innermost collection, or is the root. -/
def add (b : Builder) (n : Node) : Builder :=
  match b.frames with
  | f :: fs => { b with frames := { f with items := n :: f.items } :: fs }
  | [] => { b with root := some n }

/-- **setAnchor** — a new anchor gets its number and place. -/
def setAnchor (b : Builder) : Option Name → Builder × Option (Nat × Nat)
  | none => (b, none)
  | some name =>
    let names := if (b.numbers.lookup name).isSome then b.names else b.names + 1
    ({ b with numbers := (name, b.names) :: b.numbers, names, anchors := b.anchors + 1 },
      some (b.names, b.anchors))

/-- **target** — the node of an anchor. -/
def target (b : Builder) (anchor : Option (Nat × Nat)) (n : Node) : Builder :=
  match anchor with
  | some (number, place) => { b with targets := ⟨number, place, n⟩ :: b.targets }
  | none => b

/-- **closeInnermost** — the innermost collection is complete. -/
def closeInnermost (b : Builder) : Builder :=
  match b.frames with
  | f :: fs => (({ b with frames := fs }.target f.anchor f.close).add f.close)
  | [] => b

/-- **event** — the tree after one more event. After a fault nothing is read. -/
def event (b : Builder) (e : Event) : Builder :=
  if b.fault.isSome then b
  else
    match e with
    | .alias name =>
      match b.numbers.lookup name with
      | some number => { b.add (.alias number) with size := b.size + 1 }
      | none => { b with fault := some .unknownAnchor }
    | .scalar anchor tag style text =>
      let (b, anchor) := b.setAnchor anchor
      let n := Node.scalar tag style text
      { (b.target anchor n).add n with size := b.size + 1 }
    | .sequenceStart anchor tag =>
      let (b, anchor) := b.setAnchor anchor
      { b with frames := ⟨false, tag, anchor, []⟩ :: b.frames, size := b.size + 1 }
    | .mappingStart anchor tag =>
      let (b, anchor) := b.setAnchor anchor
      { b with frames := ⟨true, tag, anchor, []⟩ :: b.frames, size := b.size + 1 }
    | .sequenceEnd => { b.closeInnermost with size := b.size + 1 }
    | .mappingEnd => { b.closeInnermost with size := b.size + 1 }

/-- **finish** — the document when no more events come: what is open ends in a cut. -/
def finish (b : Builder) : Document :=
  let b := if b.frames.isEmpty then b else b.frames.foldl (fun b _ => b.closeInnermost) (b.add .cut)
  ⟨b.root.getD .cut, b.targets, b.size, b.fault⟩

end Builder

/-- **ofEvents** — the document of an event stream. A text without one has the root `void`. -/
def ofEvents (s : EventStream) : Document :=
  if s.started then
    let b := s.events.foldl Builder.event {}
    { b with fault := b.fault.or s.fault }.finish
  else ⟨.void, [], 1, none⟩

/-- **ofText** — the first document of a text. -/
def ofText (cs : List Char) : Document :=
  ofEvents (EventStream.ofTokens (TokenStream.ofText cs))

/-- **target?** — the node that an alias means. -/
def target? (d : Document) (number : Nat) : Option Node :=
  let found := d.targets.filter (·.number == number)
  let last := found.foldl (fun m t => max m t.place) 0
  (found.find? (·.place == last)).map (·.node)

end Document

/-! ## § Wholeness -/

mutual

/-- **isWhole** — no fault lies inside the node. -/
def Node.isWhole : Node → Bool
  | .cut => false
  | .sequence _ items => Node.allWhole items
  | .mapping _ items => Node.allWhole items
  | .scalar .. => true
  | .alias _ => true
  | .void => true

/-- **allWhole** — no fault lies inside any of the nodes. -/
def Node.allWhole : List Node → Bool
  | [] => true
  | n :: ns => n.isWhole && Node.allWhole ns

end

end RegisterMap.Yaml
