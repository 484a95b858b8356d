import Machining.Proofs.CodeSets
import Machining.Proofs.JsonText

namespace Machining.Profile
open Machining.Json

variable {p : Profile} {j v : Json} {listed codes : List Json} {k : String}

/-- The codes that a value lists: items that are no arrays or objects, keys, or characters. -/
inductive Lists : Json → List Json → Prop where
  | items {items : List Json} (scalar : ∀ j ∈ items, isScalar j = true) : Lists (.array items) items
  | keys (members : List (String × Json)) :
      Lists (.object members) (members.map fun m => .string m.1)
  | chars (s : String) : Lists (.string s) (s.toList.map fun c => .string c.toString)

/-- A profile is what a value states, member by member. -/
structure StatedBy (j : Json) (p : Profile) : Prop where
  known : ∃ members, j = .object members ∧ ∀ m ∈ members, m.1 ∈ keys
  name : j.field? "name" = some p.name
  machineType : j.field? "machine_type" = some p.machineType
  axes : j.field? "axes" = some p.axes
  gCodes : ∃ v listed, j.field? "g_codes" = some v ∧ Lists v listed ∧ IsSetOf listed p.gCodes
  mCodes : ∃ v listed, j.field? "m_codes" = some v ∧ Lists v listed ∧ IsSetOf listed p.mCodes
  maxFeed : p.maxFeed = (j.field? "max_feed").getD (float 10000.0)
  maxSpindle : p.maxSpindle = (j.field? "max_spindle").getD (float 24000.0)
  maxRapid : p.maxRapid = (j.field? "max_rapid").getD (float 15000.0)
  hasToolChanger : p.hasToolChanger = (j.field? "has_tool_changer").getD (.bool true)
  hasCoolant : p.hasCoolant = (j.field? "has_coolant").getD (.bool true)
  hasSpindle : p.hasSpindle = (j.field? "has_spindle").getD (.bool true)

inductive HoldsCodes : Json → Prop where
  | text (s : String) : HoldsCodes (.string s)
  | object (members : List (String × Json)) : HoldsCodes (.object members)
  | array {items : List Json} (plain : ∀ j ∈ items, (∀ js, j ≠ .array js) ∧ ∀ members,
      j ≠ .object members) :
    HoldsCodes (.array items)

/-- An object with all that a profile needs and nothing that it does not know. -/
structure Describes (j : Json) : Prop where
  known : ∃ members, j = .object members ∧ ∀ m ∈ members, m.1 ∈ keys
  needed : ∀ k ∈ ["name", "machine_type", "axes", "g_codes", "m_codes"], ∃ v, j.field? k = some v
  codes : ∀ k ∈ ["g_codes", "m_codes"], ∀ v, j.field? k = some v → HoldsCodes v

theorem holdsCodes_iff : HoldsCodes v ↔ ∃ listed, Lists v listed := by
  constructor
  · intro h
    cases h with
    | text s => exact ⟨_, .chars s⟩
    | object members => exact ⟨_, .keys members⟩
    | array plain =>
      refine ⟨_, .items fun j hj => ?_⟩
      obtain ⟨harray, hobject⟩ := plain j hj
      cases j with
      | array js => exact absurd rfl (harray js)
      | object members => exact absurd rfl (hobject members)
      | null | bool b | number n | string s => rfl
  · intro h
    obtain ⟨listed, h⟩ := h
    cases h with
    | chars s => exact .text s
    | keys members => exact .object members
    | items scalar =>
      refine .array fun j hj => ⟨?_, ?_⟩
      · rintro js rfl
        cases scalar _ hj
      · rintro members rfl
        cases scalar _ hj

theorem codes?_eq_some : codes? v = some codes ↔
    ∃ listed, Lists v listed ∧ codes = codeSet listed := by
  constructor
  · intro h
    cases v with
    | array items =>
      simp only [codes?] at h
      split at h
      · rename_i hall
        exact ⟨items, .items (List.all_eq_true.mp hall), (Option.some.inj h).symm⟩
      · cases h
    | object members => exact ⟨_, .keys members, (Option.some.inj h).symm⟩
    | string s => exact ⟨_, .chars s, (Option.some.inj h).symm⟩
    | null | bool b | number n => cases h
  · intro h
    obtain ⟨listed, hlists, rfl⟩ := h
    cases hlists with
    | items scalar => rw [codes?, if_pos (List.all_eq_true.mpr scalar)]
    | keys members => rfl
    | chars s => rfl

/-- What a legible value lists are codes that can be read. -/
theorem Lists.isCode (h : Lists v listed) (hv : Legible v) :
    ∀ c ∈ listed, IsCode c ∧ Legible c := by
  intro c hc
  cases h with
  | items scalar =>
    cases hv with
    | array hitems =>
      have hlegible := hitems c hc
      refine ⟨?_, hlegible⟩
      cases hlegible with
      | null => exact .null
      | bool b => exact .number rfl (by simp)
      | number hread =>
        refine .number rfl ?_
        rintro rfl
        cases hread
      | string hjoined => exact .text _
      | array hs => cases scalar _ hc
      | object hd hk hs => cases scalar _ hc
  | keys members =>
    cases hv with
    | object distinct keys values =>
      obtain ⟨m, hm, rfl⟩ := List.mem_map.mp hc
      exact ⟨.text _, .string (keys m hm)⟩
  | chars s =>
    obtain ⟨d, -, rfl⟩ := List.mem_map.mp hc
    refine ⟨.text _, .string ?_⟩
    rw [Char.toString, String.toList_singleton]
    exact .singleton d

theorem legible_field? (hj : Legible j) (h : j.field? k = some v) : Legible v := by
  cases hj with
  | object distinct keys values =>
    obtain ⟨m, hm, rfl⟩ := Option.map_eq_some_iff.mp h
    exact values m (List.mem_of_find?_eq_some hm)
  | null | bool b | number hn | string hs | array hs => cases h

theorem isKnown_iff : isKnown j = true ↔
    ∃ members, j = .object members ∧ ∀ m ∈ members, m.1 ∈ keys := by
  cases j with
  | object members => simp [isKnown]
  | null | bool b | number n | string s | array js => simp [isKnown]

theorem codes?_eq_some_iff (hj : Legible j) (hv : j.field? k = some v) :
    codes? v = some codes ↔ ∃ listed, Lists v listed ∧ IsSetOf listed codes := by
  rw [codes?_eq_some]
  refine exists_congr fun listed => and_congr_right fun hlists => ?_
  have hcodes : ∀ c ∈ listed, IsCode c := fun c hc => (hlists.isCode (legible_field? hj hv) c hc).1
  constructor
  · rintro rfl
    exact isSetOf_codeSet hcodes
  · intro h
    exact h.unique hcodes (isSetOf_codeSet hcodes)

/-- A value is read as the profile that it states. -/
theorem ofJson?_eq_some_iff (hj : Legible j) : ofJson? j = some p ↔ p.StatedBy j := by
  simp only [ofJson?, Option.bind_eq_bind, Option.bind_eq_some_iff]
  constructor
  · intro h
    obtain ⟨g, hg, gs, hgs, m, hm, ms, hms, name, hname, kind, hkind, axes, haxes, h⟩ := h
    obtain ⟨gs', hgs⟩ := (codes?_eq_some_iff hj hg).mp hgs
    obtain ⟨ms', hms⟩ := (codes?_eq_some_iff hj hm).mp hms
    split at h
    · rename_i hknown
      obtain rfl := Option.some.inj h
      exact ⟨isKnown_iff.mp hknown, hname, hkind, haxes, ⟨g, gs', hg, hgs⟩, ⟨m, ms', hm, hms⟩, rfl,
        rfl, rfl, rfl, rfl, rfl⟩
    · cases h
  · intro h
    obtain ⟨g, gs, hg, hgs⟩ := h.gCodes
    obtain ⟨m, ms, hm, hms⟩ := h.mCodes
    refine ⟨g, hg, _, (codes?_eq_some_iff hj hg).mpr ⟨gs, hgs⟩, m, hm, _,
      (codes?_eq_some_iff hj hm).mpr ⟨ms, hms⟩, _, h.name, _, h.machineType, _, h.axes, ?_⟩
    rw [if_pos (isKnown_iff.mpr h.known)]
    simp only [standard]
    rw [← h.maxFeed, ← h.maxSpindle, ← h.maxRapid, ← h.hasToolChanger, ← h.hasCoolant,
      ← h.hasSpindle]

/-- A value that describes a profile states one. -/
theorem describes_iff (hj : Legible j) : Describes j ↔ ∃ p : Profile, p.StatedBy j := by
  constructor
  · intro h
    obtain ⟨name, hname⟩ := h.needed "name" (by simp)
    obtain ⟨kind, hkind⟩ := h.needed "machine_type" (by simp)
    obtain ⟨axes, haxes⟩ := h.needed "axes" (by simp)
    have hcodes (k : String) (hk : k ∈ ["g_codes", "m_codes"]) :
        ∃ codes v listed, j.field? k = some v ∧ Lists v listed ∧ IsSetOf listed codes := by
      obtain ⟨v, hv⟩ := h.needed k (List.mem_append_right ["name", "machine_type", "axes"] hk)
      obtain ⟨listed, hlists⟩ := holdsCodes_iff.mp (h.codes k hk v hv)
      exact ⟨codeSet listed, v, listed, hv, hlists,
        isSetOf_codeSet fun c hc => (hlists.isCode (legible_field? hj hv) c hc).1⟩
    obtain ⟨gs, hgs⟩ := hcodes "g_codes" (by simp)
    obtain ⟨ms, hms⟩ := hcodes "m_codes" (by simp)
    exact ⟨⟨name, kind, axes, gs, ms, _, _, _, _, _, _⟩,
      ⟨h.known, hname, hkind, haxes, hgs, hms, rfl, rfl, rfl, rfl, rfl, rfl⟩⟩
  · intro h
    obtain ⟨p, h⟩ := h
    obtain ⟨g, gs, hg, hgs, -⟩ := h.gCodes
    obtain ⟨m, ms, hm, hms, -⟩ := h.mCodes
    refine ⟨h.known, ?_, ?_⟩
    · simp only [List.forall_mem_cons]
      exact ⟨⟨_, h.name⟩, ⟨_, h.machineType⟩, ⟨_, h.axes⟩, ⟨g, hg⟩, ⟨m, hm⟩, by simp⟩
    · simp only [List.forall_mem_cons, hg, hm, Option.some.injEq, forall_eq']
      exact ⟨holdsCodes_iff.mpr ⟨gs, hgs⟩, holdsCodes_iff.mpr ⟨ms, hms⟩, by simp⟩

structure ReadCodes (codes : List Json) : Prop where
  ascending : Ascending codes
  code : ∀ c ∈ codes, IsCode c
  legible : ∀ c ∈ codes, Legible c

structure Sound (p : Profile) : Prop where
  name : Legible p.name
  machineType : Legible p.machineType
  axes : Legible p.axes
  gCodes : ReadCodes p.gCodes
  mCodes : ReadCodes p.mCodes
  maxFeed : Legible p.maxFeed
  maxSpindle : Legible p.maxSpindle
  maxRapid : Legible p.maxRapid
  hasToolChanger : Legible p.hasToolChanger
  hasCoolant : Legible p.hasCoolant
  hasSpindle : Legible p.hasSpindle

theorem readCodes_of_isSetOf (h : IsSetOf listed codes)
    (hlisted : ∀ c ∈ listed, IsCode c ∧ Legible c) : ReadCodes codes :=
  ⟨h.ascending, fun c hc => (hlisted c (h.subset c hc)).1,
    fun c hc => (hlisted c (h.subset c hc)).2⟩

theorem StatedBy.sound (h : p.StatedBy j) (hj : Legible j) : p.Sound := by
  have hcodes {k : String} {codes : List Json}
      (h : ∃ v listed, j.field? k = some v ∧ Lists v listed ∧ IsSetOf listed codes) :
      ReadCodes codes := by
    obtain ⟨v, listed, hv, hlists, hset⟩ := h
    exact readCodes_of_isSetOf hset (hlists.isCode (legible_field? hj hv))
  have hgetD (k : String) {d : Json} (hd : Legible d) : Legible ((j.field? k).getD d) := by
    cases hv : j.field? k with
    | none => exact hd
    | some v => exact legible_field? hj hv
  constructor
  · exact legible_field? hj h.name
  · exact legible_field? hj h.machineType
  · exact legible_field? hj h.axes
  · exact hcodes h.gCodes
  · exact hcodes h.mCodes
  · rw [h.maxFeed]
    exact hgetD _ (.number trivial)
  · rw [h.maxSpindle]
    exact hgetD _ (.number trivial)
  · rw [h.maxRapid]
    exact hgetD _ (.number trivial)
  · rw [h.hasToolChanger]
    exact hgetD _ (.bool true)
  · rw [h.hasCoolant]
    exact hgetD _ (.bool true)
  · rw [h.hasSpindle]
    exact hgetD _ (.bool true)

def isWhole (s : String) : Bool := s.toList.all fun c => (Text.loneUnit? c).isNone

theorem joined_of_isWhole {s : String} (h : isWhole s = true) : Joined s.toList := by
  unfold isWhole at h
  generalize s.toList = cs at h
  induction cs with
  | nil => exact .nil
  | cons c cs ih =>
    rw [List.all_cons, Bool.and_eq_true, Option.isNone_iff_eq_none] at h
    exact List.isChain_cons.mpr ⟨fun d _ => not_meet_of_none h.1 d, ih h.2⟩

theorem ReadCodes.array (h : ReadCodes codes) : Legible (.array codes) := .array h.legible

theorem Sound.legible (h : p.Sound) : Legible p.toJson := by
  have hkeys : keys.all isWhole = true := by decide
  refine .object (show keys.Nodup by decide) (fun m hm => ?_) ?_
  · apply joined_of_isWhole
    exact List.all_eq_true.mp hkeys m.1 (List.mem_map_of_mem (f := (·.1)) hm)
  · simp only [List.forall_mem_cons]
    exact ⟨h.name, h.machineType, h.axes, h.gCodes.array, h.mCodes.array, h.maxFeed, h.maxSpindle,
      h.maxRapid, h.hasToolChanger, h.hasCoolant, h.hasSpindle, by simp⟩

theorem isScalar_of_isCode {c : Json} (h : IsCode c) : isScalar c = true := by
  cases h with
  | number hx present =>
    cases c with
    | array items | object members => cases hx
    | null | bool b | number n | string s => rfl
  | text s => rfl
  | null => rfl

theorem ReadCodes.lists (h : ReadCodes codes) : Lists (.array codes) codes ∧ IsSetOf codes codes :=
  ⟨.items fun c hc => isScalar_of_isCode (h.code c hc), h.ascending.isSetOf h.code⟩

theorem Sound.statedBy (h : p.Sound) : p.StatedBy p.toJson := by
  constructor
  · refine ⟨_, rfl, fun m hm => ?_⟩
    exact List.mem_map_of_mem (f := (·.1)) hm
  · rfl
  · rfl
  · rfl
  · exact ⟨.array p.gCodes, p.gCodes, rfl, h.gCodes.lists⟩
  · exact ⟨.array p.mCodes, p.mCodes, rfl, h.mCodes.lists⟩
  · rfl
  · rfl
  · rfl
  · rfl
  · rfl
  · rfl

/-- A sound profile comes back from the file that it is saved to. -/
theorem Sound.load_save (h : p.Sound) : load (save p) = p := by
  have hread : ofJson? p.toJson = some p := (ofJson?_eq_some_iff h.legible).mpr h.statedBy
  rw [load, save, ofText?_text h.legible _, Option.bind_some, hread, Option.getD_some]

theorem readCodes_numbers {ns : List Int} (h : ns.all (fun n => decide (n.natAbs < 1000)) = true) :
    ReadCodes (numbers ns) := by
  have hlisted : ∀ c ∈ ns.map Json.int, IsCode c ∧ Legible c := by
    intro c hc
    obtain ⟨n, hn, rfl⟩ := List.mem_map.mp hc
    have hsmall : n.natAbs < 10 ^ 3 := of_decide_eq_true (List.all_eq_true.mp h n hn)
    have hlength : (Decimal.natDigits n.natAbs).length ≤ 3 :=
      (Nat.length_toDigits_le_iff (by decide) (by decide)).mpr hsmall
    exact ⟨.number rfl (by simp), .number (hlength.trans (by decide))⟩
  exact readCodes_of_isSetOf (isSetOf_codeSet fun c hc => (hlisted c hc).1) hlisted

theorem legible_texts {xs : List String} (h : xs.all isWhole = true) : Legible (texts xs) := by
  refine .array fun j hj => ?_
  obtain ⟨s, hs, rfl⟩ := List.mem_map.mp hj
  exact .string (joined_of_isWhole (List.all_eq_true.mp h s hs))

theorem sound_standard {name kind : String} {axes : List String} {gs ms : List Int}
    (hname : isWhole name = true) (hkind : isWhole kind = true) (haxes : axes.all isWhole = true)
    (hgs : gs.all (fun n => decide (n.natAbs < 1000)) = true)
    (hms : ms.all (fun n => decide (n.natAbs < 1000)) = true) :
    (standard (.string name) (.string kind) (texts axes) (numbers gs) (numbers ms)).Sound :=
  ⟨.string (joined_of_isWhole hname), .string (joined_of_isWhole hkind), legible_texts haxes,
    readCodes_numbers hgs, readCodes_numbers hms, .number trivial, .number trivial, .number trivial,
    .bool true, .bool true, .bool true⟩

theorem sound_mill : mill.Sound :=
  sound_standard (by decide) (by decide) (by decide) (by decide) (by decide)

theorem sound_rotaryMill : rotaryMill.Sound :=
  { sound_mill with
    name := .string (joined_of_isWhole (by decide))
    axes := legible_texts (by decide)
    maxFeed := .number trivial }

/-- Other limits and equipment. -/
theorem Sound.equipped {feed spindle rapid : Float} {changer coolant turns : Bool} (h : p.Sound) :
    Sound { p with
      maxFeed := float feed
      maxSpindle := float spindle
      maxRapid := float rapid
      hasToolChanger := .bool changer
      hasCoolant := .bool coolant
      hasSpindle := .bool turns } :=
  { h with
    maxFeed := .number trivial
    maxSpindle := .number trivial
    maxRapid := .number trivial
    hasToolChanger := .bool changer
    hasCoolant := .bool coolant
    hasSpindle := .bool turns }

theorem sound_lathe : lathe.Sound :=
  (sound_standard (by decide) (by decide) (by decide) (by decide) (by decide)).equipped

theorem sound_plasma : plasma.Sound :=
  (sound_standard (by decide) (by decide) (by decide) (by decide) (by decide)).equipped

theorem sound_ofName (name : String) : (ofName name).Sound := by
  unfold ofName
  simp only [List.find?_cons]
  split
  · exact sound_mill
  · split
    · exact sound_mill
    · split
      · exact sound_rotaryMill
      · split
        · exact sound_lathe
        · split
          · exact sound_plasma
          · exact sound_mill

/-- A file is loaded as what it states, or the mill stands in for it. -/
theorem load_cases (text : String) :
    (∃ j, ofText? text = some j ∧ (load text).StatedBy j) ∨
      (¬ ∃ j, ofText? text = some j ∧ Describes j) ∧ load text = mill := by
  unfold load
  cases hj : ofText? text with
  | none => exact .inr ⟨by simp, rfl⟩
  | some j =>
    have hlegible := legible_of_ofText? hj
    cases hp : ofJson? j with
    | some p =>
      refine .inl ⟨j, rfl, ?_⟩
      rw [Option.bind_some, hp, Option.getD_some]
      exact (ofJson?_eq_some_iff hlegible).mp hp
    | none =>
      refine .inr ⟨?_, by rw [Option.bind_some, hp, Option.getD_none]⟩
      intro h
      obtain ⟨j', heq, hdescribes⟩ := h
      obtain rfl := Option.some.inj heq
      obtain ⟨p, hstated⟩ := (describes_iff hlegible).mp hdescribes
      rw [(ofJson?_eq_some_iff hlegible).mpr hstated] at hp
      cases hp

theorem sound_load (text : String) : (load text).Sound := by
  rcases load_cases text with ⟨j, hj, hstated⟩ | ⟨-, hmill⟩
  · exact hstated.sound (legible_of_ofText? hj)
  · rw [hmill]
    exact sound_mill

/-- Files hold profiles. A file has a profile of its own, and is loaded as this one, if its text is
a value that describes one; the mill stands in for every other file. What was loaded, or found by
name, comes back when it is saved and loaded again. -/
theorem load_stated_or_mill (text name : String) :
    (∀ p : Profile, (∃ j, ofText? text = some j ∧ p.StatedBy j) ↔
      p = load text ∧ ∃ j, ofText? text = some j ∧ Describes j) ∧
    ((∃ j, ofText? text = some j ∧ Describes j) ∨ load text = mill) ∧
    load (save (load text)) = load text ∧ load (save (ofName name)) = ofName name := by
  refine ⟨fun p => ⟨?_, ?_⟩, ?_, (sound_load text).load_save, (sound_ofName name).load_save⟩
  · intro h
    obtain ⟨j, hj, hstated⟩ := h
    have hlegible := legible_of_ofText? hj
    refine ⟨?_, j, hj, (describes_iff hlegible).mpr ⟨p, hstated⟩⟩
    rw [load, hj, Option.bind_some, (ofJson?_eq_some_iff hlegible).mpr hstated, Option.getD_some]
  · intro h
    obtain ⟨rfl, hdescribes⟩ := h
    rcases load_cases text with hstated | ⟨hnone, -⟩
    · exact hstated
    · exact absurd hdescribes hnone
  · rcases load_cases text with ⟨j, hj, hstated⟩ | ⟨-, hmill⟩
    · exact .inl ⟨j, hj, (describes_iff (legible_of_ofText? hj)).mpr ⟨_, hstated⟩⟩
    · exact .inr hmill

end Machining.Profile
