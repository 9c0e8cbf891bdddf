import RegisterMap.Device.Basic
import RegisterMap.Device.Fault
import RegisterMap.Log

/-!
# The flat table of a device

Every word has a name of its own: the canonical name of its register, and for a register of several
words the number of the word after it. No two words of a device have one name.
-/

namespace RegisterMap.FlatEntry

/-- **wordEntry** — the word of a longer register at an address. -/
def wordEntry (base : String) (page reg : Nat) (r : Register) (addr : Nat) : Option FlatEntry :=
  (r.significance? addr).map fun u => ⟨base ++ "_BY" ++ Text.decimal u, addr, some u, page, reg⟩

/-- **ofRegister** — the words of a register in ascending order of their addresses. -/
def ofRegister (base : String) (page reg : Nat) (r : Register) : List FlatEntry :=
  if r.wordCount = 1 then [⟨base, r.addrLo, none, page, reg⟩]
  else r.addresses.filterMap (wordEntry base page reg r)

/-- **ofPage** — the words of a page. -/
def ofPage (pagePrefix : Bool) (page : Nat) (p : Page) : List FlatEntry :=
  (p.regs.mapIdx fun i r => ofRegister (canonicalName pagePrefix p r) page i r).flatten

/-- **ofPages** — the words of all pages. -/
def ofPages (pagePrefix : Bool) (pages : List Page) : List FlatEntry :=
  (pages.mapIdx fun i p => ofPage pagePrefix i p).flatten

/-- **indexFrom** — the index after entries whose names must be new. -/
def indexFrom (index : NameIndex) : List FlatEntry → Logged BuildFault NameIndex
  | [] => pure index
  | e :: es =>
    if index.contains e.name then Logged.fail (.conflict (.repeatedEntry e.name))
    else do
      Logged.write .trace .description
        ("flat register " ++ e.name ++ " = 0x" ++ Text.hex e.addr)
      indexFrom (index.push e.name) es

/-- **build** — the flat table and its index. -/
def build (pagePrefix : Bool) (pages : List Page) :
    Logged BuildFault (List FlatEntry × NameIndex) := do
  let entries := ofPages pagePrefix pages
  let index ← indexFrom NameIndex.empty entries
  pure (entries, index)

end RegisterMap.FlatEntry
