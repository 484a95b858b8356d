import Machining.Proofs.Program
import Machining.Proofs.Run

namespace Machining
open Text
open Expression (Evaluator)

namespace Text

theorem fields_go_single (part cs : List Char) (h : ∀ c ∈ cs, isBlank c = false) :
    fields.go part cs = if (part.reverse ++ cs).isEmpty then [] else [part.reverse ++ cs] := by
  induction cs generalizing part with
  | nil => simp [fields.go]
  | cons c cs ih =>
    have hc : isBlank c = false := h c List.mem_cons_self
    rw [fields.go, if_neg (by simp [hc]), ih _ fun d hd => h d (List.mem_cons_of_mem c hd)]
    simp

/-- Characters without a blank are one field. -/
theorem fields_single {cs : List Char} (h : ∀ c ∈ cs, isBlank c = false) (hne : cs ≠ []) :
    fields cs = [cs] := by
  rw [fields, fields_go_single [] cs h]
  simp [hne]

end Text

def Block.controlReports (b : Block Number) : List Diagnostic :=
  match b.oWord with
  | none => []
  | some w => if w.isEmpty then [] else [.onLine b.line .syntactic s!"Invalid O-word format: {w}"]

namespace Flow

theorem readCommand_written {b : Block Number} (h : b.Written) (r : Routine) :
    readCommand b r = ({ r with reports := r.reports ++ b.controlReports }, .ok none) := by
  unfold readCommand Block.controlReports
  cases hw : b.oWord with
  | none => simp
  | some w =>
    cases hne : w.isEmpty with
    | true => simp only [hne, ↓reduceIte, List.append_nil]
    | false =>
      have hparts : parts w = [w] := by
        rw [parts, fields_single (h.control w hw) (by simpa using hne)]
        simp
      simp only [hparts, hne, Bool.false_eq_true, ↓reduceIte]
      rfl

theorem readFrom_written {bs : List (Block Number)} (h : ∀ b ∈ bs, b.Written) (i : Int)
    (r : Routine) :
    readFrom i bs r = ({ r with reports := r.reports ++ bs.flatMap Block.controlReports },
      .ok ()) := by
  induction bs generalizing i r with
  | nil => simp [readFrom]
  | cons b bs ih =>
    rw [readFrom, readCommand_written (h b List.mem_cons_self)]
    simp only
    rw [ih fun b' hb' => h b' (List.mem_cons_of_mem b hb')]
    simp

/-- Blocks from a text hold no commands. -/
theorem prepare_written {bs : List (Block Number)} (h : ∀ b ∈ bs, b.Written) (r : Routine) :
    prepare bs.toArray r =
      ({ r with
          flow := { r.flow with blocks := bs.toArray, commands := .empty, subroutines := .empty }
          reports := r.reports ++ bs.flatMap Block.controlReports }, .ok true) := by
  simp only [prepare]
  rw [readFrom_written h]
  simp [check, checkFrom, Table.empty]

end Flow

namespace Number

def Given (v : Number) : Prop := v ≠ .missing

theorem IsFloat.given {v : Number} (h : v.IsFloat) : v.Given := by
  obtain ⟨x, rfl⟩ := h
  exact nofun

theorem holds_given (op : Comparison) {a b : Number} (ha : a.Given) (hb : b.Given) :
    ∃ v, a.holds op b = .ok v := by
  cases a with
  | missing => exact absurd rfl ha
  | int | float =>
    cases b with
    | missing => exact absurd rfl hb
    | int | float => cases op <;> exact ⟨_, rfl⟩

theorem insertWithin_given (n : Nat) {x : Number} {xs : List Number} (hx : x.Given)
    (h : ∀ y ∈ xs, y.Given) : ∃ ys, insertWithin n x xs = .ok ys ∧ ∀ y ∈ ys, y.Given := by
  induction n generalizing xs with
  | zero => exact ⟨_, rfl, by simpa using ⟨hx, h⟩⟩
  | succ n ih =>
    unfold insertWithin
    simp only
    split
    · exact ⟨_, rfl, by simpa using hx⟩
    · rename_i y hy
      have htake : ∀ k, ∀ z ∈ xs.take k, z.Given := fun k z hz => h z (List.mem_of_mem_take hz)
      have hdrop : ∀ k, ∀ z ∈ xs.drop k, z.Given := fun k z hz => h z (List.mem_of_mem_drop hz)
      obtain ⟨v, hv⟩ := holds_given .lt hx (h y (List.mem_of_getElem? hy))
      rw [hv]
      cases v with
      | true =>
        obtain ⟨ys, hys, hall⟩ := ih (htake (xs.length / 2))
        refine ⟨ys ++ xs.drop (xs.length / 2),
          by simp [hys, bind, Except.bind, pure, Except.pure], ?_⟩
        intro z hz
        rcases List.mem_append.mp hz with hz | hz
        · exact hall z hz
        · exact hdrop _ z hz
      | false =>
        obtain ⟨ys, hys, hall⟩ := ih (hdrop (xs.length / 2 + 1))
        refine ⟨xs.take (xs.length / 2 + 1) ++ ys,
          by simp [hys, bind, Except.bind, pure, Except.pure], ?_⟩
        intro z hz
        rcases List.mem_append.mp hz with hz | hz
        · exact htake _ z hz
        · exact hall z hz

theorem insertAll_given {sorted xs : List Number} (hs : ∀ y ∈ sorted, y.Given)
    (h : ∀ y ∈ xs, y.Given) :
    ∃ ys, insertAll sorted xs = .ok ys ∧ ∀ y ∈ ys, y.Given := by
  induction xs generalizing sorted with
  | nil => exact ⟨sorted, rfl, hs⟩
  | cons x xs ih =>
    obtain ⟨ys, hys, hall⟩ := insertWithin_given sorted.length (h x List.mem_cons_self) hs
    obtain ⟨zs, hzs, hall'⟩ := ih hall fun y hy => h y (List.mem_cons_of_mem x hy)
    exact ⟨zs, by simp [insertAll, hys, hzs, bind, Except.bind], hall'⟩

theorem stretch_given (falling : Bool) {x : Number} {xs : List Number} (hx : x.Given)
    (h : ∀ y ∈ xs, y.Given) :
    ∃ run rest, stretch falling x xs = .ok (run, rest) ∧ (∀ y ∈ run, y.Given) ∧
      ∀ y ∈ rest, y.Given := by
  induction xs generalizing x with
  | nil => exact ⟨_, _, rfl, by simpa using hx, by simp⟩
  | cons y ys ih =>
    have hy := h y List.mem_cons_self
    obtain ⟨v, hv⟩ := holds_given .lt hy hx
    obtain ⟨run, rest, hrun, hall, hrest⟩ := ih hy fun z hz => h z (List.mem_cons_of_mem y hz)
    unfold stretch
    rw [hv]
    by_cases hf : v = falling
    · refine ⟨x :: run, rest, ?_, by simpa using ⟨hx, hall⟩, hrest⟩
      simp [hf, hrun, bind, Except.bind, pure, Except.pure]
    · exact ⟨[x], y :: ys, by simp [hf, bind, Except.bind, pure, Except.pure], by simpa using hx, h⟩

/-- Sorting has a result unless a number is missing. -/
theorem sort_given {xs : List Number} (h : ∀ y ∈ xs, y.Given) :
    ∃ ys, sort xs = .ok ys ∧ ∀ y ∈ ys, y.Given := by
  match xs, h with
  | [], h => exact ⟨[], rfl, h⟩
  | [x], h => exact ⟨[x], rfl, h⟩
  | x :: y :: ys, h =>
    have hx := h x List.mem_cons_self
    have hrest : ∀ z ∈ y :: ys, z.Given := fun z hz => h z (List.mem_cons_of_mem x hz)
    obtain ⟨v, hv⟩ := holds_given .lt (hrest y List.mem_cons_self) hx
    obtain ⟨run, rest, hrun, hall, hbehind⟩ := stretch_given v hx hrest
    cases v with
    | true =>
      have hreverse : ∀ y ∈ run.reverse, y.Given := by simpa using hall
      obtain ⟨zs, hzs, hz⟩ := insertAll_given hreverse hbehind
      exact ⟨zs, by simp [sort, leading, hv, hrun, hzs, bind, Except.bind, pure, Except.pure], hz⟩
    | false =>
      obtain ⟨zs, hzs, hz⟩ := insertAll_given hall hbehind
      exact ⟨zs, by simp [sort, leading, hv, hrun, hzs, bind, Except.bind], hz⟩

end Number

structure Block.Coded (b : Block Number) : Prop where
  m : ∀ code ∈ b.m.keys, code.Given
  g : ∀ code ∈ b.g.keys, code.Given

theorem Block.Written.coded {b : Block Number} (h : b.Written) : b.Coded :=
  ⟨fun code hc => (h.m code hc).given, fun code hc => (h.g code hc).given⟩

def Station.Goes (s : Station) : Prop := ∀ d ∈ s.control.reports, d.severity ≠ .fatal

theorem Station.Goes.not_fatal {s : Station} (h : s.Goes) :
    Diagnostic.hasFatal s.control.reports = false := by
  rw [Diagnostic.hasFatal, List.any_eq_false]
  intro d hd
  simpa [Diagnostic.isFatal] using h d hd

namespace Auxiliary
variable {b : Block Number} {s : Station} {code : Number}

theorem execute_ok (hc : code.Given) : ∃ ok, (execute code b s).outcome = .ok ok := by
  unfold execute
  split
  · exact ⟨_, rfl⟩
  · have hcustom : ∃ v, isCustom code = .ok v := by
      have hwhole (n : Int) : (Number.int n).Given := nofun
      obtain ⟨least, hleast⟩ := Number.holds_given .le (hwhole 100) hc
      obtain ⟨most, hmost⟩ := Number.holds_given .le hc (hwhole 199)
      simp only [isCustom, hleast, hmost, bind, Except.bind, pure, Except.pure]
      split <;> exact ⟨_, rfl⟩
    obtain ⟨v, hv⟩ := hcustom
    rw [hv]
    cases v <;> exact ⟨_, rfl⟩

theorem executeAll_ok {codes : List Number} (h : ∀ code ∈ codes, code.Given) :
    ∃ ok, (executeAll b codes s).outcome = .ok ok := by
  induction codes generalizing s with
  | nil => exact ⟨true, rfl⟩
  | cons code rest ih =>
    obtain ⟨ok, hok⟩ := execute_ok (b := b) (s := s) (h code List.mem_cons_self)
    unfold executeAll
    split
    · exact ih fun c hc => h c (List.mem_cons_of_mem code hc)
    · exact ⟨ok, hok⟩

end Auxiliary

namespace Interpreter
variable {b : Block Number} {s : Station}

/-- The codes of a block come to a verdict. -/
theorem runCodes_ok (h : b.Coded) (s : Station) : ∃ ok, (runCodes b s).outcome = .ok ok := by
  obtain ⟨ms, hms, hmall⟩ := Number.sort_given h.m
  obtain ⟨gs, hgs, _⟩ := Number.sort_given h.g
  obtain ⟨ok, hok⟩ := Auxiliary.executeAll_ok (b := b) (s := s) hmall
  unfold runCodes
  rw [hms]
  simp only
  split
  · unfold runGCodes
    rw [hgs]
    exact ⟨_, rfl⟩
  · exact ⟨ok, hok⟩

def carry (s : Station) (b : Block Number) : Station :=
  (runCodes b { s with printed := s.printed ++ announcements b }).station

theorem carry_grows (b : Block Number) (h : s.Bare) :
    s.control.Grows (· = b.line) (carry s b).control ∧ (carry s b).Bare :=
  runCodes_grows b (s := { s with printed := s.printed ++ announcements b }) h

def carryOut (t : Interpreter) (b : Block Number) : Interpreter := (executeBlock b t).1

variable {t : Interpreter} {m : Machine Number}

/-- With a machine of their own, the settings of a block do not reach its codes. -/
theorem carryOut_display (b : Block Number) (h : t.display = some m) :
    t.carryOut b = { t with station := carry t.station b, display := some (note b m) } := by
  unfold carryOut executeBlock modifyMachine
  simp only [h, foldl_print]
  rfl

/-- Without, they are noted on the machine that the codes work on. -/
theorem carryOut_shared (b : Block Number) (h : t.display = none) :
    t.carryOut b =
      { t with station := carry (t.station.setMachine (note b t.station.machine)) b } := by
  unfold carryOut executeBlock modifyMachine
  simp only [h, foldl_print]
  rfl

theorem carryOut_flow (t : Interpreter) (b : Block Number) : (t.carryOut b).flow = t.flow := by
  cases h : t.display with
  | none => rw [carryOut_shared b h]
  | some m => rw [carryOut_display b h]

theorem carryOut_at (t : Interpreter) (b : Block Number) (i : Int) :
    carryOut { t with position := i } b = { t.carryOut b with position := i } := by
  cases h : t.display with
  | none =>
    refine (carryOut_shared (t := { t with position := i, display := none }) b rfl).trans ?_
    rw [carryOut_shared b h, h]
  | some m =>
    refine (carryOut_display (t := { t with position := i, display := some m }) b rfl).trans ?_
    rw [carryOut_display b h]

theorem carryOut_position (t : Interpreter) (b : Block Number) :
    (t.carryOut b).position = t.position := by
  cases h : t.display with
  | none => rw [carryOut_shared b h]
  | some m => rw [carryOut_display b h]

theorem foldl_carryOut_at (t : Interpreter) (bs : List (Block Number)) (i : Int) :
    bs.foldl carryOut { t with position := i } = { bs.foldl carryOut t with position := i } := by
  induction bs generalizing t with
  | nil => rfl
  | cons b bs ih => rw [List.foldl_cons, carryOut_at, ih, List.foldl_cons]

/-- Carrying out a block adds to its own line, and gives no custom code an action. -/
theorem carryOut_grows (b : Block Number) (h : t.station.Bare) :
    t.station.control.Grows (· = b.line) (t.carryOut b).station.control ∧
    (t.carryOut b).station.Bare := by
  cases hd : t.display with
  | none =>
    rw [carryOut_shared b hd]
    have hg := carry_grows b (s := t.station.setMachine (note b t.station.machine)) h
    have hsame : t.station.control.Grows (· = b.line)
        (t.station.setMachine (note b t.station.machine)).control :=
      .of_same rfl rfl
    exact ⟨hsame.trans hg.1, hg.2⟩
  | some m =>
    rw [carryOut_display b hd]
    exact carry_grows b h

theorem carryOut_goes (b : Block Number) (h : t.station.Bare) (hg : t.station.Goes) :
    (t.carryOut b).station.Goes := by
  obtain ⟨⟨more, hmore, hok⟩, _⟩ := (carryOut_grows b h).1
  intro d hd
  rw [hmore] at hd
  rcases List.mem_append.mp hd with hd | hd
  · exact hg d hd
  · exact (hok d hd).2.severity

theorem foldl_carryOut_goes (bs : List (Block Number)) (h : t.station.Bare) (hg : t.station.Goes) :
    (bs.foldl carryOut t).station.Goes := by
  induction bs generalizing t with
  | nil => exact hg
  | cons b bs ih => exact ih (carryOut_grows b h).2 (carryOut_goes b h hg)

theorem follow_none [Evaluator] (b : Block Number) (h : t.flow.commands = .empty) :
    follow b t = (t, .ok none) := by
  have hx : Flow.execute t.position t.routine = (t.routine, .ok none) := by
    simp [Flow.execute, routine, h, Table.empty, Table.get?, Flow.goOn]
  unfold follow
  split
  · rfl
  · split
    · rfl
    · rw [hx]
      rfl

/-- A step at a block that leads nowhere else carries it out and goes on to the next one. -/
theorem step_carries [Evaluator] {s : Interpreter} (hb : t.flow.blockAt? t.position = some b)
    (hpos : t.position < t.blocks.size) (hfollow : follow b t = (s, .ok none)) (hcoded : b.Coded)
    (bare : s.station.Bare) (goes : s.station.Goes) :
    t.step = ({ s.carryOut b with position := s.position + 1 }, none) := by
  have hnot : Diagnostic.hasFatal (s.carryOut b).reports = false :=
    (carryOut_goes b bare goes).not_fatal
  obtain ⟨ok, hok⟩ : ∃ ok, executeBlock b s = (s.carryOut b, .ok ok) := by
    obtain ⟨ok, hok⟩ := runCodes_ok hcoded
      ({ s with station := (announcements b).foldl Station.print s.station }.modifyMachine
        (note b)).station
    exact ⟨ok, Prod.ext rfl hok⟩
  unfold step
  rw [if_pos hpos, hb]
  simp only [hfollow, hok, hnot, carryOut_position, Bool.and_false, Bool.false_eq_true, ↓reduceIte]

/-- So does a step at a block of a text. -/
theorem step_pass (hb : t.flow.blockAt? t.position = some b) (hpos : t.position < t.blocks.size)
    (hc : t.flow.commands = .empty) (hw : b.Written) (bare : t.station.Bare)
    (goes : t.station.Goes) : t.step = ({ t.carryOut b with position := t.position + 1 }, none) :=
  step_carries hb hpos (follow_none b hc) hw.coded bare goes

structure Laden (bs : List (Block Number)) (t : Interpreter) : Prop where
  blocks : t.flow.blocks = bs.toArray
  commands : t.flow.commands = .empty
  written : ∀ b ∈ bs, b.Written
  bare : t.station.Bare
  goes : t.station.Goes

namespace Laden
variable {bs : List (Block Number)} {k : Nat}

theorem size (h : Laden bs t) : (t.blocks.size : Int) = bs.length := by
  simp [Interpreter.blocks, h.blocks]

theorem carryOut (h : Laden bs t) (b : Block Number) (i : Int) :
    Laden bs { t.carryOut b with position := i } where
  blocks := by rw [← h.blocks, ← carryOut_flow t b]
  commands := by rw [← h.commands, ← carryOut_flow t b]
  written := h.written
  bare := (carryOut_grows b h.bare).2
  goes := carryOut_goes b h.bare h.goes

theorem blockAt (h : Laden bs t) (hpos : t.position = k) (hb : bs[k]? = some b) :
    t.position < t.blocks.size ∧ t.flow.blockAt? t.position = some b := by
  have hnat : ¬ (k : Int) < 0 := by omega
  have hlt : k < bs.length := (List.getElem?_eq_some_iff.mp hb).1
  refine ⟨?_, ?_⟩
  · rw [h.size, hpos]
    omega
  · simpa [Flow.blockAt?, hpos, h.blocks, hnat] using hb

theorem step_next (h : Laden bs t) (hpos : t.position = k) (hb : bs[k]? = some b) :
    t.step = ({ t.carryOut b with position := (k + 1 : Nat) }, none) := by
  obtain ⟨hlt, hat⟩ := h.blockAt hpos hb
  rw [step_pass hat hlt h.commands (h.written b (List.mem_of_getElem? hb)) h.bare h.goes, hpos]
  rfl

theorem at_end (h : Laden bs t) (hpos : t.position = k) (hk : bs.length ≤ k) :
    ¬ t.position < t.blocks.size := by
  rw [h.size, hpos]
  omega

/-- From any block on, each step carries out one block. A bound on the steps cuts the run off
exactly if it leaves no step to find the end. -/
theorem run_from (h : Laden bs t) (hpos : t.position = k) (hk : k ≤ bs.length) (n : Nat) :
    run n t = ({ ((bs.drop k).take n).foldl Interpreter.carryOut
      t with position := (min (k + n) bs.length : Nat) }, if k + n ≤ bs.length then .error
        .endless else .ok true) := by
  induction n generalizing t k with
  | zero =>
    have hmin : min (k + 0) bs.length = k := by omega
    rw [run, hmin, ← hpos, if_pos (by omega)]
    rfl
  | succ n ih =>
    cases hb : bs[k]? with
    | some b =>
      obtain ⟨hlt, hget⟩ := List.getElem?_eq_some_iff.mp hb
      have hdrop : bs.drop k = b :: bs.drop (k + 1) := by
        rw [List.drop_eq_getElem_cons hlt, hget]
      rw [run, h.step_next hpos hb, hdrop]
      simp only [List.take_succ_cons, List.foldl_cons]
      rw [ih (h.carryOut b _) rfl hlt, foldl_carryOut_at, Nat.add_right_comm k 1 n,
        Nat.add_assoc k n 1]
    | none =>
      have hend : bs.length = k := Nat.le_antisymm (List.getElem?_eq_none_iff.mp hb) hk
      have hstep : t.step = (t, some (.ok true)) := if_neg (h.at_end hpos (Nat.le_of_eq hend))
      have hmin : min (k + (n + 1)) bs.length = k := by omega
      rw [run, hstep, List.drop_eq_nil_of_le (Nat.le_of_eq hend), hmin, ← hpos, if_neg (by omega)]
      simp

/-- The run over all blocks, with any bound. -/
theorem executeBlocks (h : Laden bs { t with position := 0 }) (n : Nat) :
    t.executeBlocks n =
      ({ (bs.take n).foldl Interpreter.carryOut t with position := (min n bs.length : Nat) },
        if n ≤ bs.length then .error .endless else .ok true) := by
  have hfrom := h.run_from (k := 0) rfl (Nat.zero_le _) n
  simp only [Nat.zero_add, List.drop_zero] at hfrom
  rw [Interpreter.executeBlocks, hfrom, foldl_carryOut_at]

end Laden

def openingReports (text : String) (bs : List (Block Number)) : List Diagnostic :=
  (Token.scan text).2 ++ (Block.ofTokens (Token.scan text).1).reports ++
    bs.flatMap Block.controlReports

def openedStation (text : String) (bs : List (Block Number)) (s : Station) : Station :=
  { s with control := { s.control with path := .empty, reports := openingReports text bs } }

def opened (text : String) (bs : List (Block Number)) (t : Interpreter) : Interpreter where
  text
  tokens := (Token.scan text).1
  flow := { t.flow with blocks := bs.toArray, commands := .empty, subroutines := .empty }
  parameters := t.parameters.clearUser
  station := openedStation text bs t.station
  display := some .initial
  position := 0

variable {text : String} {bs : List (Block Number)}

theorem opened_goes (text : String) (bs : List (Block Number)) (t : Interpreter) :
    (opened text bs t).station.Goes := by
  have herror : ∀ d ∈ openingReports text bs, d.severity = .error := by
    intro d hd
    rcases List.mem_append.mp hd with hd | hd
    · rcases List.mem_append.mp hd with hd | hd
      · exact Token.scan_reports hd
      · exact Block.readFrom_reports hd
    · obtain ⟨b, _, hd⟩ := List.mem_flatMap.mp hd
      unfold Block.controlReports at hd
      split at hd
      · cases hd
      · split at hd
        · cases hd
        · rw [List.mem_singleton.mp hd]
          rfl
  intro d hd
  rw [herror d hd]
  decide

theorem opened_laden (hbs : (Block.ofTokens (Token.scan text).1).blocks? = some bs)
    (bare : t.station.Bare) : Laden bs (opened text bs t) :=
  ⟨rfl, rfl, (Block.ofText_listed hbs).written, bare, opened_goes text bs t⟩

/-- Blocks of a text are taken in without objection. -/
theorem load_written (text : String) (hw : ∀ b ∈ bs, b.Written) (t : Interpreter) :
    ∃ u, (begin text t).load bs.toArray = (u, .ok true) ∧
      { u with position := 0 } = opened text bs t := by
  unfold load
  rw [Flow.prepare_written hw]
  exact ⟨_, rfl, rfl⟩

/-- Processing a text without custom actions carries out each of its blocks once, and is
accepted. -/
theorem process_pass (hbs : (Block.ofTokens (Token.scan text).1).blocks? = some bs)
    (bare : t.station.Bare) :
    t.process text = ({ bs.foldl carryOut (opened text bs t) with position := bs.length },
      .ok true) := by
  have hladen := opened_laden hbs bare (t := t)
  obtain ⟨u, hload, hu⟩ := load_written text (Block.ofText_listed hbs).written t
  rw [← hu] at hladen ⊢
  have hsize : u.blocks.size = bs.length := by exact_mod_cast hladen.size
  have hrun : u.executeBlocks (u.blocks.size + 1) =
      ({ bs.foldl carryOut u with position := bs.length }, .ok true) := by
    rw [hladen.executeBlocks, hsize, List.take_of_length_le (Nat.le_succ _),
      Nat.min_eq_right (Nat.le_succ _), if_neg (Nat.not_succ_le_self _)]
  have hnot : Diagnostic.hasFatal
      ({ bs.foldl carryOut u with position := bs.length } : Interpreter).reports = false :=
    (foldl_carryOut_goes (t := u) bs hladen.bare hladen.goes).not_fatal
  rw [process_eq_perform, hbs]
  simp only [perform, hload, hrun]
  rw [foldl_carryOut_at u bs 0]
  simpa using hnot

/-- The machine on which only settings are noted. -/
def noteAll (bs : List (Block Number)) (m : Machine Number) : Machine Number :=
  bs.foldl (fun m b => note b m) m

/-- Settings on a machine of their own and codes on the station go side by side. -/
theorem foldl_carryOut_display (bs : List (Block Number)) (h : t.display = some m) :
    bs.foldl carryOut t =
      { t with station := bs.foldl carry t.station, display := some (noteAll bs m) } := by
  induction bs generalizing t m with
  | nil => simp [noteAll, ← h]
  | cons b bs ih =>
    rw [List.foldl_cons, carryOut_display b h, ih rfl]
    rfl

def carryNoted (s : Station) (b : Block Number) : Station :=
  carry (s.setMachine (note b s.machine)) b

theorem foldl_carryOut_shared (bs : List (Block Number)) (h : t.display = none) :
    bs.foldl carryOut t = { t with station := bs.foldl carryNoted t.station } := by
  induction bs generalizing t with
  | nil => rfl
  | cons b bs ih =>
    rw [List.foldl_cons, carryOut_shared b h]
    exact ih (t := { t with station := carryNoted t.station b }) h

/-- What processing a text without custom actions leaves. -/
theorem process_eq (hbs : (Block.ofTokens (Token.scan text).1).blocks? = some bs)
    (bare : t.station.Bare) :
    t.process text =
      ({ opened text bs t with
          station := bs.foldl carry (openedStation text bs t.station)
          display := some (noteAll bs .initial)
          position := bs.length }, .ok true) := by
  rw [process_pass hbs bare, foldl_carryOut_display bs rfl]
  rfl

end Interpreter
end Machining
