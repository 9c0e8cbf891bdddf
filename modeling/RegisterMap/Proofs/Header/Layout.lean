import RegisterMap.Header
import RegisterMap.Proofs.Outcome

/-!
# Layout — the declarations of a header in their order

A header is generated as a whole or not at all: it fails with a register of several words that has
a field of listed bits. If there is no such register, the header is what all registers share,
followed by the declarations of each register, page by page. A register first introduces its names
and then its constructors.

## § What is here

* `Place.introduction`, `Place.construction`, `Place.declared` — the declarations of a register;
* `Place.introduction_cases`, `Place.mem_construction` — the macros of a register;
* `Place.declarations_eq_ok` — when a register has declarations, and which;
* `Scope.places`, `Scope.registerDeclarations_eq` — the registers of a device in their order;
* `Scope.shared`, `Scope.layout` — the whole header;
* `Scope.declarations_eq_ok`, `generate_eq_ok` — when a header is generated, and its text;
* `generate_of_single` — devices that always have a header.
-/

namespace RegisterMap.Header

open Outcome

/-- Each item of a mapped list has a key. -/
theorem filterMap_map_some {α β γ : Type} {f : α → β} {key : β → Option γ} {g : α → γ}
    (hkey : ∀ a, key (f a) = some (g a)) (as : List α) :
    (as.map f).filterMap key = as.map g := by
  rw [List.filterMap_map, ← List.filterMap_eq_map]
  exact List.filterMap_congr fun a _ => hkey a

/-- **IsMacro** — the declaration of a macro. -/
def Declaration.IsMacro : Declaration → Prop
  | .define .. => True
  | _ => False

/-! ## § Registers -/

namespace Place

variable {p : Place} {rs : List Declaration}

/-- **introduction** — the names of a register and its fields. A lone value introduces none. -/
def introduction (p : Place) : List Declaration :=
  if p.reg.isValueOnly then [p.remark, .blank]
  else [p.remark] ++ p.optionEnums ++ [.blank] ++ [p.fieldEnum]
    ++ if p.device.fieldMacros then p.fieldMacros else []

/-- **construction** — the macros that construct a register. -/
def construction (p : Place) : List Declaration :=
  if p.reg.isSingleValue then []
  else if p.reg.wordCount = 1 then [p.singleMacro]
  else p.wordMacros

/-- **declared** — everything that a header says about a register. -/
def declared (p : Place) : List Declaration := p.introduction ++ p.construction

theorem mem_fieldMacros {d : Declaration} : d ∈ p.fieldMacros ↔
    (∃ f ∈ p.reg.fields, d = p.getter f) ∨ (∃ f ∈ p.reg.fields, d = p.setter f) ∨ d = .blank := by
  simp [fieldMacros, eq_comm (b := d)]

theorem mem_introduction {d : Declaration} : d ∈ p.introduction ↔
    d = p.remark ∨ d = .blank ∨ (p.reg.isValueOnly = false ∧ (d ∈ p.optionEnums ∨
      d = p.fieldEnum ∨ (p.device.fieldMacros = true ∧ d ∈ p.fieldMacros))) := by
  rw [introduction]
  by_cases hvalue : p.reg.isValueOnly = true
  · simp [hvalue]
  · by_cases hmacros : p.device.fieldMacros = true
    · simp [hvalue, hmacros]
      tauto
    · simp [hvalue, hmacros]
      tauto

/-- What introduces a register is a getter or a setter of one of its fields, or no macro. -/
theorem introduction_cases {d : Declaration} (hd : d ∈ p.introduction) : ¬ d.IsMacro ∨
    (p.reg.isValueOnly = false ∧ ∃ f ∈ p.reg.fields, d = p.getter f ∨ d = p.setter f) := by
  rcases mem_introduction.1 hd with rfl | rfl | ⟨hvalue, hopt | rfl | ⟨-, hfield⟩⟩
  · exact .inl id
  · exact .inl id
  · obtain ⟨f, -, rfl⟩ := List.mem_map.1 hopt
    exact .inl id
  · exact .inl id
  · rcases mem_fieldMacros.1 hfield with ⟨f, hf, rfl⟩ | ⟨f, hf, rfl⟩ | rfl
    · exact .inr ⟨hvalue, f, hf, .inl rfl⟩
    · exact .inr ⟨hvalue, f, hf, .inr rfl⟩
    · exact .inl id

theorem mem_construction {d : Declaration} : d ∈ p.construction ↔
    (p.reg.wordCount = 1 ∧ p.reg.isValueOnly = false ∧ d = p.singleMacro) ∨
      (p.reg.wordCount ≠ 1 ∧ ((1 < p.reg.fields.length ∧ d = p.longMacro) ∨
        ∃ u, u < p.reg.wordCount ∧ d = p.wordMacro u)) := by
  rw [construction, Register.isSingleValue]
  by_cases hone : p.reg.wordCount = 1
  · cases hvalue : p.reg.isValueOnly with
    | true => simp [hone]
    | false => simp [hone]
  · by_cases hlong : 1 < p.reg.fields.length
    · simp [hone, wordMacros, hlong, eq_comm (b := d)]
    · simp [hone, wordMacros, hlong, eq_comm (b := d)]

/-- A lone value is the only field. -/
theorem isValueOnly_of_length (h : 1 < p.reg.fields.length) : p.reg.isValueOnly = false := by
  rw [Register.isValueOnly]
  split
  · rename_i f hf
    rw [hf] at h
    exact absurd h (by simp)
  · rfl

/-- **Constructible** — the register is a single word, or has no field of listed bits. -/
def Constructible (p : Place) : Prop :=
  p.reg.wordCount = 1 ∨ ∀ f ∈ p.reg.fields, f.bits.isScattered = false

theorem makeMacros_eq_ok : p.makeMacros = .ok rs ↔
    p.Constructible ∧ rs = if p.reg.wordCount = 1 then [p.singleMacro] else p.wordMacros := by
  rw [makeMacros, Constructible]
  by_cases hone : p.reg.wordCount = 1
  · simp [hone, eq_comm (b := rs)]
  · cases hfind : p.reg.fields.find? fun f => f.bits.isScattered with
    | none =>
      have hranges : ∀ f ∈ p.reg.fields, f.bits.isScattered = false := by
        simpa using List.find?_eq_none.1 hfind
      simp only [hone, if_false, false_or, eq_true hranges, true_and, Except.ok.injEq]
      exact eq_comm
    | some f =>
      have hnot : ¬ ∀ f ∈ p.reg.fields, f.bits.isScattered = false := by
        intro hranges
        have hlisted := List.find?_some hfind
        rw [hranges f (List.mem_of_find?_eq_some hfind)] at hlisted
        cases hlisted
      simp [hone, hnot]

/-- The declarations of a register. -/
theorem declarations_eq_ok : p.declarations = .ok rs ↔ p.Constructible ∧ rs = p.declared := by
  rw [declarations, declared, introduction, construction]
  by_cases hlone : p.reg.isSingleValue = true
  · have hparts : p.reg.wordCount = 1 ∧ p.reg.isValueOnly = true := by
      simpa [Register.isSingleValue] using hlone
    rw [Constructible]
    simp [hlone, hparts, eq_comm (b := rs)]
  · by_cases hvalue : p.reg.isValueOnly = true
    · simp [hlone, hvalue, bind_eq_ok, makeMacros_eq_ok, and_assoc, eq_comm (b := rs)]
    · simp [hlone, hvalue, bind_eq_ok, makeMacros_eq_ok, and_assoc, eq_comm (b := rs)]

end Place

/-! ## § Headers -/

namespace Scope

variable {s : Scope} {ds : List Declaration}

/-- **places** — all registers of the device, page by page. -/
def places (s : Scope) : List Place :=
  s.device.pages.flatMap fun page => page.regs.map fun reg => ⟨s, page, reg⟩

/-- **shared** — what a header declares before its registers. -/
def shared (s : Scope) : List Declaration :=
  [s.addressEnum, s.writeMacro, s.readMacro] ++ s.device.tables.map s.tableEnum

/-- **layout** — all declarations of a header in their order. -/
def layout (s : Scope) : List Declaration := s.shared ++ s.places.flatMap Place.declared

theorem mem_places {p : Place} :
    p ∈ s.places ↔ p.toScope = s ∧ p.page ∈ s.device.pages ∧ p.reg ∈ p.page.regs := by
  simp only [places, List.mem_flatMap, List.mem_map]
  refine ⟨?_, fun ⟨hscope, hpage, hreg⟩ => ?_⟩
  · intro ⟨page, hpage, reg, hreg, hp⟩
    obtain rfl := hp
    exact ⟨rfl, hpage, hreg⟩
  · obtain rfl := hscope
    exact ⟨p.page, hpage, p.reg, hreg, rfl⟩

/-- Page by page, the registers are computed in their order. -/
theorem registerDeclarations_eq : s.registerDeclarations
    = s.places.mapM Place.declarations >>= fun rs => .ok rs.flatten := by
  simp only [registerDeclarations, places, mapM_flatMap, List.mapM_map, bind_assoc]
  rfl

/-- The registers have declarations together when each of them has. -/
theorem registerDeclarations_eq_ok : s.registerDeclarations = .ok ds ↔
    (∀ p ∈ s.places, p.Constructible) ∧ ds = s.places.flatMap Place.declared := by
  have hplace : ∀ p rs, Place.declarations p = .ok rs ↔ p.Constructible ∧ rs = p.declared :=
    fun p rs => Place.declarations_eq_ok
  simp only [registerDeclarations_eq, bind_eq_ok, mapM_eq_ok_map hplace, List.flatMap]
  refine ⟨?_, fun ⟨hall, hds⟩ => ⟨_, ⟨hall, rfl⟩, congrArg Except.ok hds.symm⟩⟩
  intro ⟨qs, ⟨hall, hqs⟩, hds⟩
  exact ⟨hall, by rw [← Except.ok.inj hds, hqs]⟩

/-- A header has its declarations in the order of its layout. -/
theorem declarations_eq_ok : s.declarations = .ok ds ↔
    (∀ p ∈ s.places, p.Constructible) ∧ ds = s.layout := by
  simp only [declarations, bind_eq_ok, registerDeclarations_eq_ok, layout, shared,
    Except.ok.injEq]
  refine ⟨?_, fun ⟨hall, hds⟩ => ⟨_, ⟨hall, rfl⟩, hds.symm⟩⟩
  intro ⟨rs, ⟨hall, hrs⟩, hds⟩
  exact ⟨hall, by rw [← hds, hrs]⟩

end Scope

/-- A header is generated when all registers have declarations, and it is the text of its layout. -/
theorem generate_eq_ok {device : Device} {title : HeaderName} {text : String} :
    (generate device title).result = .ok text ↔
      (∀ p ∈ Scope.places ⟨device, title⟩, p.Constructible) ∧
        text = Declaration.renderAll (Scope.layout ⟨device, title⟩) := by
  simp only [generate, Logged.result_bind, Logged.result_ofExcept, Logged.result_write,
    Logged.result_pure]
  rw [bind_eq_ok]
  simp only [Scope.declarations_eq_ok]
  refine ⟨?_, fun ⟨hall, htext⟩ => ⟨_, ⟨hall, rfl⟩, congrArg Except.ok htext.symm⟩⟩
  intro ⟨ds, ⟨hall, hds⟩, htext⟩
  exact ⟨hall, by rw [← Except.ok.inj htext, hds]⟩

/-- A device of single words always has a header. -/
theorem generate_of_single {device : Device} {title : HeaderName}
    (hsingle : ∀ p ∈ Scope.places ⟨device, title⟩, p.reg.wordCount = 1) :
    (generate device title).result
      = .ok (Declaration.renderAll (Scope.layout ⟨device, title⟩)) :=
  generate_eq_ok.2 ⟨fun p hp => .inl (hsingle p hp), rfl⟩

end RegisterMap.Header
