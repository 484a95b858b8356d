import Machining.Proofs.MoveModes
import Machining.Proofs.Order
import Machining.Proofs.Regular
import Machining.Proofs.SinglePass

namespace Machining

namespace GCode
variable {g g' : GCode} {k : Number}

def group : GCode → ModalGroup
  | planeXY | planeXZ | planeYZ => .plane
  | inches | millimeters => .units
  | absolute | incremental => .distance
  | _ => .motion

theorem number_injective (h : g.number = g'.number) : g = g' := by
  cases g <;> cases g' <;> first | rfl | cases h

theorem number_of_moves (hg : g.moves = true) : g.number ≤ 3 := by
  cases g <;> simp_all [moves, number]

theorem number_of_selects (hs : g.selects = true) : 17 ≤ g.number := by
  cases g <;> simp_all [selects, number]

theorem selects_eq (h : g.moves = true ∨ g.selects = true) : g.selects = !g.moves := by
  cases g <;> simp_all [moves, selects]

theorem value_of_ofNumber? (h : ofNumber? k = some g) : k.value? = some (g.number : ℚ) := by
  rw [ofNumber?] at h
  have heq := List.find?_some h
  exact Number.int_beq_iff.mp heq

theorem rank_of_ofNumber? (h : ofNumber? k = some g) : k.rank = g.number := by
  rw [Number.rank, value_of_ofNumber? h, Option.getD_some]

theorem contains_group (h : ofNumber? k = some g) (hg : g.moves = true ∨ g.selects = true) :
    g.group.codes.contains k = true := by
  have hmem : Number.int g.number ∈ g.group.codes := by
    cases g <;> simp_all [moves, selects, group, ModalGroup.codes, number]
  rw [List.contains_eq_any_beq, List.any_eq_true]
  exact ⟨_, hmem, Number.beq_int_iff.mpr (value_of_ofNumber? h)⟩

end GCode

namespace Block
variable {b : Block Number}

def only (b : Block Number) (kind : GCode → Bool) : Table Number Number :=
  ⟨b.g.entries.filter fun e => (GCode.ofNumber? e.1).any kind⟩

/-- The block without the modes it selects. -/
def move (b : Block Number) : Block Number := { b with g := b.only GCode.moves }

def modes (b : Block Number) : Block Number := { Block.empty b.line with g := b.only GCode.selects }

/-- An accepted block that makes a move and selects modes, with any other words but M words. -/
structure ModalMove (b : Block Number) : Prop where
  accepted : b.isValid = true
  codes : ∀ k ∈ b.g.keys, ∃ g, GCode.ofNumber? k = some g ∧ (g.moves = true ∨ g.selects = true)
  moves : ∃ k ∈ b.g.keys, ∃ g, GCode.ofNumber? k = some g ∧ g.moves = true
  plain : b.m.keys = []

def HasArc (b : Block Number) : Prop :=
  ∃ k ∈ b.g.keys, ∃ g, GCode.ofNumber? k = some g ∧ g.isArc = true

theorem keys_only (b : Block Number) (kind : GCode → Bool) :
    (b.only kind).keys = b.g.keys.filter fun k => (GCode.ofNumber? k).any kind := by
  simp only [only, Table.keys, List.filter_map]
  rfl

theorem mem_only {k : Number} {kind : GCode → Bool} :
    k ∈ (b.only kind).keys ↔ k ∈ b.g.keys ∧ ∃ g, GCode.ofNumber? k = some g ∧ kind g = true := by
  rw [keys_only, List.mem_filter, Option.any_eq_true]

theorem activeCodes_short (h : b.isValid = true) (group : ModalGroup) :
    (b.activeCodes group.codes).length ≤ 1 := by
  have hall : group ∈ ModalGroup.all := by cases group <;> decide
  have hagree : b.groupsAgree = true := by
    rw [isValid, Bool.and_eq_true] at h
    exact h.1
  have hmem : (group.name, group.codes) ∈ exclusiveGroups :=
    List.mem_append_left _ (List.mem_map.mpr ⟨group, hall, rfl⟩)
  simpa using List.all_eq_true.mp hagree _ hmem

theorem mem_activeCodes {k : Number} {g : GCode} (hk : k ∈ b.g.keys)
    (hcode : GCode.ofNumber? k = some g) (hg : g.moves = true ∨ g.selects = true) :
    k ∈ b.activeCodes g.group.codes :=
  List.mem_filter.mpr ⟨hk, GCode.contains_group hcode hg⟩

/-- The codes of an accepted block are told apart by their numbers. -/
theorem ModalMove.distinct (h : b.ModalMove) :
    ∀ k ∈ b.g.keys, ∀ k' ∈ b.g.keys, k.rank = k'.rank → k = k' := by
  intro k hk k' hk' hrank
  obtain ⟨g, hcode, hg⟩ := h.codes k hk
  obtain ⟨g', hcode', hg'⟩ := h.codes k' hk'
  rw [GCode.rank_of_ofNumber? hcode, GCode.rank_of_ofNumber? hcode'] at hrank
  have hsame : g = g' := GCode.number_injective (by exact_mod_cast hrank)
  subst hsame
  have hshort := activeCodes_short h.accepted g.group
  have hmem := mem_activeCodes hk hcode hg
  have hmem' := mem_activeCodes hk' hcode' hg
  obtain ⟨a, ha⟩ := List.length_eq_one_iff.mp (le_antisymm hshort (List.length_pos_of_mem hmem))
  rw [ha, List.mem_singleton] at hmem hmem'
  rw [hmem, hmem']

/-- The move of a block is a single code. -/
theorem ModalMove.move_keys (h : b.ModalMove) :
    ∃ k g, b.move.g.keys = [k] ∧ GCode.ofNumber? k = some g ∧ g.moves = true := by
  obtain ⟨k, hk, g, hcode, hg⟩ := h.moves
  have hmem : k ∈ b.move.g.keys := mem_only.mpr ⟨hk, g, hcode, hg⟩
  have hshort : b.move.g.keys.length ≤ 1 := by
    refine le_trans (List.Sublist.length_le ?_) (activeCodes_short h.accepted .motion)
    rw [move, keys_only, activeCodes]
    apply List.monotone_filter_right
    intro k hk
    obtain ⟨g, hcode, hg⟩ := (Option.any_eq_true _ _).mp hk
    have hgroup : g.group = .motion := by cases g <;> simp_all [GCode.moves, GCode.group]
    exact hgroup ▸ GCode.contains_group hcode (.inl hg)
  obtain ⟨a, ha⟩ := List.length_eq_one_iff.mp (le_antisymm hshort (List.length_pos_of_mem hmem))
  rw [ha, List.mem_singleton] at hmem
  exact ⟨k, g, by rw [ha, hmem], hcode, hg⟩

theorem ModalMove.parts_perm (h : b.ModalMove) :
    (b.move.g.keys ++ b.modes.g.keys).Perm b.g.keys := by
  have hmodes : b.modes.g.keys = b.g.keys.filter fun k => !(GCode.ofNumber? k).any GCode.moves := by
    rw [modes, keys_only]
    apply List.filter_congr
    intro k hk
    obtain ⟨g, hcode, hg⟩ := h.codes k hk
    simp [hcode, GCode.selects_eq hg]
  rw [hmodes, move, keys_only]
  exact List.filter_append_perm _ _

/-- The codes of a block in their order: the move comes first. -/
theorem ModalMove.sorted (h : b.ModalMove) :
    ∃ k g codes, GCode.ofNumber? k = some g ∧ g.moves = true ∧
      (∀ k ∈ codes, ∃ g, GCode.ofNumber? k = some g ∧ g.selects = true) ∧ b.move.g.keys = [k] ∧
      Number.sort b.modes.g.keys = .ok codes ∧ Number.sort b.g.keys = .ok (k :: codes) := by
  obtain ⟨k, g, hmove, hcode, hg⟩ := h.move_keys
  have hranked : Number.Ranked Number.rank b.g.keys := by
    apply Number.ranked_finite
    intro k hk
    obtain ⟨g, hcode, -⟩ := h.codes k hk
    rw [GCode.value_of_ofNumber? hcode]
    rfl
  have hperm := h.parts_perm
  rw [hmove] at hperm
  have hsub : b.modes.g.keys ⊆ b.g.keys := fun k hk => (mem_only.mp hk).1
  obtain ⟨codes, hcodes, hparts, hascending⟩ := Number.sort_ranked (hranked.mono hsub)
  have hselects : ∀ k ∈ codes, ∃ g, GCode.ofNumber? k = some g ∧ g.selects = true :=
    fun k hk => (mem_only.mp (hparts.subset hk)).2
  refine ⟨k, g, codes, hcode, hg, hselects, hmove, hcodes, ?_⟩
  apply Number.sort_eq hranked h.distinct
  refine ⟨(hparts.cons k).trans hperm, List.pairwise_cons.mpr ⟨fun k' hk' => ?_, hascending⟩⟩
  obtain ⟨g', hcode', hs⟩ := hselects k' hk'
  have hlow := GCode.number_of_moves hg
  have hhigh := GCode.number_of_selects hs
  rw [GCode.rank_of_ofNumber? hcode, GCode.rank_of_ofNumber? hcode']
  exact_mod_cast (by omega : g.number ≤ g'.number)

end Block

namespace Interpreter
variable {b : Block Number} {codes : List Number} {t : Interpreter}

theorem feedMode?_none (h : ∀ k ∈ b.g.keys, ∃ g, GCode.ofNumber? k = some g) :
    feedMode? b = none := by
  rw [feedMode?, List.find?_eq_none]
  intro n hn hcontains
  obtain ⟨e, he, heq⟩ := List.any_eq_true.mp hcontains
  obtain ⟨g, hcode⟩ := h e.1 (List.mem_map_of_mem he)
  have hno : ∀ m : Int, (e.1 == .int m) = true → g.number = m := by
    intro m hm
    rw [Number.beq_int_iff, GCode.value_of_ofNumber? hcode, Option.some.injEq] at hm
    exact_mod_cast hm
  simp only [List.mem_cons, List.not_mem_nil, or_false] at hn
  rcases hn with rfl | rfl | rfl
  · cases g <;> cases hno 93 heq
  · cases g <;> cases hno 94 heq
  · cases g <;> cases hno 95 heq

def noted (t : Interpreter) (b : Block Number) : Station :=
  match t.display with
  | some _ => t.station
  | none => t.station.setMachine (note b t.station.machine)

theorem carry_sorted (hm : b.m.keys = []) (hsort : Number.sort b.g.keys = .ok codes) (s : Station) :
    carry s b =
      { s with
        printed := s.printed ++ announcements b
        control := (Motion.executeAll b codes s.control).2 } := by
  have hnone : Number.sort [] = .ok [] := rfl
  simp only [carry, runCodes, hm, hnone, Auxiliary.executeAll, Auxiliary.done, runGCodes, hsort]

theorem carryOut_sorted (hm : b.m.keys = []) (hsort : Number.sort b.g.keys = .ok codes)
    (t : Interpreter) :
    t.carryOut b =
      { t with
        station :=
          { t.noted b with
            printed := t.station.printed ++ announcements b
            control := (Motion.executeAll b codes (t.noted b).control).2 }
        display := t.display.map (note b) } := by
  unfold noted
  cases hd : t.display with
  | none =>
    rw [carryOut_shared b hd, carry_sorted hm hsort, hd]
    rfl
  | some m =>
    rw [carryOut_display b hd, carry_sorted hm hsort]
    rfl

theorem executeBlock_sorted (hm : b.m.keys = []) (hsort : Number.sort b.g.keys = .ok codes)
    (t : Interpreter) :
    (executeBlock b t).2 = .ok (Motion.executeAll b codes (t.noted b).control).1 := by
  have hnone : Number.sort [] = .ok [] := rfl
  unfold noted executeBlock modifyMachine
  rw [foldl_print]
  simp only [runCodes, hm, hnone, Auxiliary.executeAll, Auxiliary.done, runGCodes, hsort]
  cases t.display <;> rfl

/-- The interpreter with modes selected on the machine of its codes. -/
def adopt (t : Interpreter) (w : Selection) : Interpreter :=
  { t with station := { t.station with control := t.station.control.adopt w } }

def left (t : Interpreter) (b : Block Number) (control : Controller Number) : Interpreter :=
  { t with
    station := { t.noted b with printed := t.station.printed ++ announcements b, control }
    display := t.display.map (note b) }

theorem note_of_feedMode? {m : Machine Number} (h : feedMode? b = none) :
    note b m =
      { m with
        feed := (b.param .f).getD m.feed
        speed := (b.param .s).getD m.speed
        tool := b.tool.getD m.tool } := by
  simp only [note, h]

end Interpreter

namespace Block
variable {b : Block Number}

theorem feedMode?_only (b' : Block Number) {kind : GCode → Bool} (h : b'.g = b.only kind) :
    Interpreter.feedMode? b' = none := by
  apply Interpreter.feedMode?_none
  intro k hk
  rw [h] at hk
  obtain ⟨-, g, hcode, -⟩ := mem_only.mp hk
  exact ⟨g, hcode⟩

theorem ModalMove.feedMode? (h : b.ModalMove) : Interpreter.feedMode? b = none := by
  apply Interpreter.feedMode?_none
  intro k hk
  obtain ⟨g, hcode, -⟩ := h.codes k hk
  exact ⟨g, hcode⟩

theorem note_modes (b : Block Number) (m : Machine Number) : Interpreter.note b.modes m = m :=
  Interpreter.note_of_feedMode? (feedMode?_only b.modes rfl)

theorem ModalMove.note_move (h : b.ModalMove) : Interpreter.note b.move = Interpreter.note b := by
  funext m
  rw [Interpreter.note_of_feedMode? h.feedMode?,
    Interpreter.note_of_feedMode? (feedMode?_only b.move rfl)]
  rfl

theorem noted_modes (b : Block Number) (t : Interpreter) : t.noted b.modes = t.station := by
  unfold Interpreter.noted
  split
  · rfl
  · rw [note_modes]
    rfl

theorem ModalMove.noted_move (h : b.ModalMove) (t : Interpreter) : t.noted b.move = t.noted b := by
  rw [Interpreter.noted, h.note_move]
  rfl

/-- What carrying out a block with a move and modes comes to, and its two parts by themselves. -/
structure Split (b : Block Number) (k : Number) (w : Selection) (t : Interpreter) : Prop where
  verdict : (Interpreter.executeBlock b.move t).2 = .ok (Motion.execute k b (t.noted b).control).1
  modes : t.carryOut b.modes = t.adopt w
  move : t.carryOut b.move = t.left b (Motion.execute k b (t.noted b).control).2
  done : (Motion.execute k b (t.noted b).control).1 = true →
    t.carryOut b = t.left b ((Motion.execute k b (t.noted b).control).2.adopt w)
  refused : (Motion.execute k b (t.noted b).control).1 = false →
    t.carryOut b = t.left b (Motion.execute k b (t.noted b).control).2

theorem ModalMove.hasArc_iff {k : Number} {g : GCode} (hmove : b.move.g.keys = [k])
    (hcode : GCode.ofNumber? k = some g) : b.HasArc ↔ g.isArc = true := by
  constructor
  · rintro ⟨k', hk', g', hcode', harc⟩
    have hmoves : g'.moves = true := by cases g' <;> simp_all [GCode.isArc, GCode.moves]
    have hmem : k' ∈ b.move.g.keys := mem_only.mpr ⟨hk', g', hcode', hmoves⟩
    rw [hmove, List.mem_singleton] at hmem
    rw [hmem, hcode, Option.some.injEq] at hcode'
    rwa [hcode']
  · intro harc
    have hmem : k ∈ b.move.g.keys := by
      rw [hmove]
      exact List.mem_singleton_self k
    exact ⟨k, (mem_only.mp hmem).1, g, hcode, harc⟩

theorem ModalMove.split (h : b.ModalMove) :
    ∃ k g w, GCode.ofNumber? k = some g ∧ g.moves = true ∧ (b.HasArc ↔ g.isArc = true) ∧
      ∀ t : Interpreter, b.Split k w t := by
  obtain ⟨k, g, codes, hcode, hg, hselects, hmove, hmodes, hsort⟩ := h.sorted
  obtain ⟨w, hw⟩ := Motion.executeAll_selects (α := Number) hselects
  have hplain : b.move.m.keys = [] := h.plain
  have hsingle : Number.sort b.move.g.keys = .ok [k] := by
    rw [hmove]
    rfl
  have hexecute : ∀ c, Motion.executeAll b.move [k] c = Motion.execute k b c := fun c =>
    Motion.executeAll_single k b.move c
  refine ⟨k, g, w, hcode, hg, hasArc_iff hmove hcode, fun t => ⟨?_, ?_, ?_, ?_, ?_⟩⟩
  · rw [Interpreter.executeBlock_sorted hplain hsingle, h.noted_move, hexecute]
  · rw [Interpreter.carryOut_sorted rfl hmodes, hw, noted_modes]
    have hdisplay : t.display.map (Interpreter.note b.modes) = t.display := by
      cases t.display with
      | none => rfl
      | some m => simp [note_modes]
    have hprinted : t.station.printed ++ Interpreter.announcements b.modes = t.station.printed :=
      List.append_nil _
    rw [hdisplay, hprinted]
    rfl
  · rw [Interpreter.carryOut_sorted hplain hsingle, h.noted_move, h.note_move, hexecute]
    rfl
  · intro hdone
    rw [Interpreter.carryOut_sorted h.plain hsort, Motion.executeAll_of_true hdone, hw]
    rfl
  · intro hrefused
    rw [Interpreter.carryOut_sorted h.plain hsort, Motion.executeAll_of_false hrefused]
    rfl

end Block

namespace Interpreter
variable {b : Block Number} {w : Selection}

theorem noted_adopt (t : Interpreter) (b : Block Number) (w : Selection) :
    ((t.adopt w).noted b).control = (t.noted b).control.adopt w := by
  unfold noted adopt
  cases t.display with
  | some m => rfl
  | none =>
    simp only [note]
    cases feedMode? b <;> rfl

/-- Settings do not show where the words of a block lead, nor the plane. -/
theorem noted_way (t : Interpreter) (b : Block Number) :
    Motion.destination (t.noted b).control.machine b = Motion.destination t.station.machine b ∧
      (t.noted b).control.machine.plane = t.station.machine.plane := by
  unfold noted
  cases t.display with
  | some m => exact ⟨rfl, rfl⟩
  | none =>
    simp only [note]
    cases feedMode? b <;> exact ⟨rfl, rfl⟩

theorem noted_adopt_iff (h : feedMode? b = none) (t : Interpreter) (w : Selection) :
    (t.noted b).control.machine.adopt w = (t.noted b).control.machine ↔
      t.station.machine.adopt w = t.station.machine := by
  have hadopt : ∀ m : Machine Number, m.adopt w = m ↔ m.modes.adopt w = m.modes := by
    intro m
    constructor
    · exact fun heq => congrArg Machine.modes heq
    · intro heq
      rw [Machine.adopt, heq]
  have hmodes : (t.noted b).control.machine.modes = t.station.machine.modes := by
    unfold noted
    cases t.display with
    | some m => rfl
    | none =>
      rw [note_of_feedMode? h]
      rfl
  rw [hadopt, hadopt, hmodes]

theorem unmoved_iff (t : Interpreter) (b : Block Number) (w : Selection) (g : GCode) :
    Motion.Unmoved g b (t.noted b).control.machine w ↔
      Motion.destination (t.adopt w).station.machine b = Motion.destination t.station.machine b ∧
        (g.isArc = true → (t.adopt w).station.machine.plane = t.station.machine.plane) := by
  have hafter := noted_way (t.adopt w) b
  rw [noted_adopt] at hafter
  obtain ⟨hd, hp⟩ := noted_way t b
  constructor
  · rintro ⟨destination, plane⟩
    exact ⟨hafter.1.symm.trans (destination.trans hd),
      fun harc => hafter.2.symm.trans ((plane harc).trans hp)⟩
  · rintro ⟨destination, plane⟩
    exact ⟨hafter.1.trans (destination.trans hd.symm),
      fun harc => hafter.2.trans ((plane harc).trans hp.symm)⟩

/-- A block that makes a move and selects modes makes the move first, in the modes it finds, and
sets the modes only if the move succeeds. Setting them first comes to the same segments and machine
if and only if the move leads to the same place in the new modes, and an arc lies in the same plane;
if the move fails, only if the modes are in force already. -/
theorem modes_first_iff (h : b.ModalMove) (t : Interpreter) :
    ((executeBlock b.move t).2 = .ok true →
      t.carryOut b = (t.carryOut b.move).carryOut b.modes ∧
      ((t.carryOut b).station.control.SameWork
        ((t.carryOut b.modes).carryOut b.move).station.control ↔
        (b.hasAxes = true →
          Motion.destination (t.carryOut b.modes).station.machine b =
            Motion.destination t.station.machine b ∧
            (b.HasArc → (t.carryOut b.modes).station.machine.plane = t.station.machine.plane)))) ∧
    ((executeBlock b.move t).2 ≠ .ok true →
      t.carryOut b = t.carryOut b.move ∧
      ((t.carryOut b).station.control.SameWork
        ((t.carryOut b.modes).carryOut b.move).station.control ↔
        (t.carryOut b.modes).station.machine = t.station.machine)) := by
  obtain ⟨k, g, w, hcode, hg, harc, hsplit⟩ := h.split
  obtain ⟨hverdict, hmodes, hmove, hdone, hrefused⟩ := hsplit t
  have hlater : ((t.adopt w).carryOut b.move).station.control =
      (Motion.execute k b ((t.noted b).control.adopt w)).2 := by
    rw [(hsplit (t.adopt w)).move, left, noted_adopt]
  obtain ⟨hok, hpath, hmachine⟩ := Motion.execute_move hcode b (t.noted b).control
  obtain ⟨-, hpath', hmachine'⟩ := Motion.execute_move hcode b ((t.noted b).control.adopt w)
  rw [hverdict, hmodes]
  constructor
  · intro htrue
    have hsucceeds : (Motion.execute k b (t.noted b).control).1 = true := Except.ok.inj htrue
    rw [hdone hsucceeds, hmove, (hsplit _).modes]
    refine ⟨rfl, ?_⟩
    rw [hlater, harc, ← unmoved_iff, ← Motion.perform_swap_iff hg (hok.mp hsucceeds)]
    exact Controller.sameWork_congr hpath (congrArg (Machine.adopt · w) hmachine) hpath' hmachine'
  · intro hfalse
    have hfails : (Motion.execute k b (t.noted b).control).1 = false := by
      simpa using hfalse
    rw [hrefused hfails, hmove]
    refine ⟨rfl, ?_⟩
    rw [hlater]
    refine Iff.trans ?_ (noted_adopt_iff h.feedMode? t w)
    rw [← Motion.perform_same_iff (b := b) (c := (t.noted b).control) hg]
    exact Controller.sameWork_congr hpath hmachine hpath' hmachine'

def increment : Block Number :=
  ((Block.ofTokens (Token.scan "G91 G0 X1").1).blocks?.getD []).headD (.empty 1)

/-- Its codes, and where it leads from X5 in absolute and in incremental mode. -/
theorem increment_read :
    increment.isValid = true ∧ increment.m.keys = [] ∧ increment.hasAxes = true ∧
    increment.g.keys.map GCode.ofNumber? = [some .incremental, some .rapid] ∧
    (executeBlock increment.move (initial.process "G0 X5").1).2 = .ok true ∧
    Motion.destination ((initial.process "G0 X5").1.carryOut increment.modes).station.machine
      increment ≠
      Motion.destination (initial.process "G0 X5").1.station.machine increment := by
  decide +kernel

theorem increment_modalMove : increment.ModalMove := by
  obtain ⟨haccepted, hplain, -, hcodes, -⟩ := increment_read
  refine ⟨haccepted, ?_, ?_, hplain⟩
  · intro k hk
    have hmem := List.mem_map_of_mem (f := GCode.ofNumber?) hk
    rw [hcodes] at hmem
    rcases List.mem_cons.mp hmem with hcode | hmem
    · exact ⟨.incremental, hcode, .inr rfl⟩
    · exact ⟨.rapid, List.mem_singleton.mp hmem, .inl rfl⟩
  · have hmem : some GCode.rapid ∈ increment.g.keys.map GCode.ofNumber? := by simp [hcodes]
    obtain ⟨k, hk, hcode⟩ := List.mem_map.mp hmem
    exact ⟨k, hk, .rapid, hcode, rfl⟩

/-- From X5 the move of this line ends at X1; with the mode set first it ends at X6. -/
theorem modes_first_iff_increment :
    increment.ModalMove ∧
    (executeBlock increment.move (initial.process "G0 X5").1).2 = .ok true ∧
    (initial.process "G0 X5").1.carryOut increment =
      ((initial.process "G0 X5").1.carryOut increment.move).carryOut increment.modes ∧
    ¬ ((initial.process "G0 X5").1.carryOut increment).station.control.SameWork
      (((initial.process "G0 X5").1.carryOut increment.modes).carryOut
        increment.move).station.control := by
  obtain ⟨-, -, haxes, -, hok, hleads⟩ := increment_read
  obtain ⟨hparts, hiff⟩ := (modes_first_iff increment_modalMove (initial.process "G0 X5").1).1 hok
  refine ⟨increment_modalMove, hok, hparts, fun hsame => ?_⟩
  exact hleads (hiff.mp hsame haxes).1

end Interpreter
end Machining
