import Machining.Proofs.Run
import Mathlib.Data.List.Chain

namespace Machining
variable {α : Type}

/-- A path that leads from `p` to `q` without a gap. -/
structure Toolpath.Unbroken (p : Point α) (t : Toolpath α) (q : Point α) : Prop where
  first : ∀ s ∈ t.segments.head?, s.start = p
  joined : t.segments.IsChain fun s s' => s'.start = s.stop
  last : (t.segments.getLast?.map Segment.stop).getD p = q

namespace Toolpath.Unbroken
variable {t t' : Toolpath α} {p q : Point α}

theorem of_nil (h : t.segments = []) (p : Point α) : t.Unbroken p p :=
  ⟨by simp [h], by simp [h], by simp [h]⟩

/-- A segment that starts where the path ended continues it. -/
theorem add (h : t.Unbroken p q) {s : Segment α} (hs : t'.segments = t.segments ++ [s])
    (hstart : s.start = q) : t'.Unbroken p s.stop := by
  have hlast := h.last
  rw [← hlast] at hstart
  refine ⟨?_, ?_, by simp [hs]⟩
  · intro s' hs'
    cases hseg : t.segments with
    | nil =>
      rw [hs, hseg] at hs'
      rw [hseg] at hstart
      cases hs'
      simpa using hstart
    | cons a rest =>
      rw [hs, hseg] at hs'
      exact h.first s' (by simpa [hseg] using hs')
  · rw [hs, List.isChain_append]
    refine ⟨h.joined, List.isChain_singleton s, ?_⟩
    intro a ha s' hs'
    cases hs'
    rw [hstart, Option.mem_def.mp ha]
    rfl

end Toolpath.Unbroken

def Controller.Traced (p : Point α) (c : Controller α) : Prop :=
  c.path.Unbroken p c.machine.position.point

theorem Motion.Effect.traced [Scalar α] {b : Block α} {c : Controller α} {r : Motion.Result α}
    {p : Point α} (e : Effect b c r) (h : c.Traced p) : r.controller.Traced p := by
  cases e with
  | stays still _ _ _ | refuses still _ _ _ _ =>
    unfold Controller.Traced
    rw [still.path, still.position]
    exact h
  | moves _ s path _ start stop _ _ _ =>
    unfold Controller.Traced
    rw [← stop]
    exact h.add path start

namespace Station

/-- Custom actions leave the tool where it is. -/
def ActionsStay (s : Station) : Prop :=
  ∀ code a, s.actions.get? code = some a → ∀ b m, (a b m).machine.position = m.position

def Traced (p : Point Number) (s : Station) : Prop := s.control.Traced p ∧ s.ActionsStay

inductive Call where
  | g (code : Number) (b : Block Number)
  | m (code : Number) (b : Block Number)

def act (s : Station) : Call → Station
  | .g code b => { s with control := (Motion.execute code b s.control).2 }
  | .m code b => (Auxiliary.execute code b s).station

def actAll (s : Station) (calls : List Call) : Station := calls.foldl act s

variable {s t : Station} {p : Point Number}

/-- Only path, position and actions count for tracing. -/
theorem Traced.congr (h : s.Traced p) (hp : t.control.path = s.control.path)
    (hpos : t.control.machine.position = s.control.machine.position) (ha : t.actions = s.actions) :
    t.Traced p := by
  refine ⟨?_, ?_⟩
  · unfold Controller.Traced
    rw [hp, hpos]
    exact h.1
  · unfold ActionsStay
    rw [ha]
    exact h.2

theorem Traced.rests (h : s.Traced p) (r : s.Rests t) : t.Traced p := by
  obtain ⟨speed, tool, hm⟩ := r.machine
  exact h.congr r.path (by rw [hm]) r.actions

theorem foldl_report (ds : List Diagnostic) (s : Station) :
    ds.foldl report s =
      { s with control := { s.control with reports := s.control.reports ++ ds } } := by
  induction ds generalizing s with
  | nil => simp
  | cons d ds ih => simp [ih, report, Controller.report]

/-- An action may change the machine at will, save for the position. -/
theorem Traced.executeCustom (h : s.Traced p) (code : Number) (b : Block Number) :
    (Auxiliary.executeCustom code b s).2.Traced p := by
  unfold Auxiliary.executeCustom
  split
  · exact h.congr rfl rfl rfl
  · rename_i a ha
    have hpos := h.2 code a ha b s.machine
    simp only [foldl_report]
    split <;> exact h.congr rfl hpos rfl

theorem Traced.executeM (h : s.Traced p) (code : Number) (b : Block Number) :
    (Auxiliary.execute code b s).station.Traced p := by
  unfold Auxiliary.execute
  split
  · exact h.rests (Auxiliary.executeBuiltin_effect _ code b s).rests
  · split
    · exact h
    · exact h.executeCustom code b
    · exact h.congr rfl rfl rfl

theorem Traced.executeG (h : s.Traced p) (code : Number) (b : Block Number) :
    Traced p { s with control := (Motion.execute code b s.control).2 } :=
  ⟨(Motion.execute_effect code b s.control).traced h.1, h.2⟩

theorem Traced.act (h : s.Traced p) (c : Call) : (s.act c).Traced p := by
  cases c with
  | g code b => exact h.executeG code b
  | m code b => exact h.executeM code b

theorem Traced.actAll (h : s.Traced p) (calls : List Call) : (s.actAll calls).Traced p := by
  induction calls generalizing s with
  | nil => exact h
  | cons c calls ih => exact ih (h.act c)

end Station

namespace Interpreter
variable {t : Interpreter} {p : Point Number}

theorem note_position (b : Block Number) (m : Machine Number) :
    (note b m).position = m.position := by
  unfold note
  cases feedMode? b <;> rfl

theorem executeBlock_traced (b : Block Number) (h : t.station.Traced p) :
    (executeBlock b t).1.station.Traced p := by
  apply runCodes_keeps (fun code _ ht => ht.executeM code b) (fun code _ ht => ht.executeG code b)
  rw [foldl_print]
  unfold modifyMachine
  split
  · exact h.congr rfl rfl rfl
  · exact h.congr rfl (note_position b _) rfl

theorem follow_traced (b : Block Number) (h : t.station.Traced p) :
    (follow b t).1.station.Traced p := by
  unfold follow
  split
  · exact h
  · split
    · exact h
    · exact h.congr rfl rfl rfl

/-- Tracing survives any number of steps. -/
theorem executeBlocks_traced (n : Nat) (h : t.station.Traced p) :
    (t.executeBlocks n).1.station.Traced p := by
  refine run_keeps (P := fun u => u.station.Traced p) (t := { t with position := 0 }) ?_ n h
  intro u hu
  exact step_keeps (P := fun u => u.station.Traced p) (fun b _ => follow_traced b)
    (fun b _ => executeBlock_traced b) (fun _ _ hv => hv) hu

theorem load_traced (blocks : Array (Block Number)) (h : t.station.Traced p) :
    (t.load blocks).1.station.Traced p := h.congr rfl rfl rfl

/-- Processing a text starts with an empty path, from where the tool is. -/
theorem process_traced (text : String) (h : t.station.ActionsStay) :
    (t.process text).1.station.Traced t.station.machine.position.point := by
  refine process_keeps (P := fun u => u.station.Traced t.station.machine.position.point)
    (fun _ blocks hu => load_traced blocks hu) (fun n _ hu => executeBlocks_traced n hu) text t ?_
  exact ⟨.of_nil rfl _, h⟩

end Interpreter

/-- A station that starts with an empty path leaves an unbroken one, whatever codes it is given and
whether or not they succeed. So does an interpreter that carries out blocks, after any number of
steps, and one that processes a text: its path starts where the run before left the tool. -/
theorem toolpath_unbroken :
    (∀ (s : Station) (calls : List Station.Call), s.control.path.segments = [] → s.ActionsStay →
      (s.actAll calls).control.path.Unbroken s.machine.position.point
        (s.actAll calls).machine.position.point) ∧
    (∀ (t : Interpreter) (n : Nat), t.path.segments = [] → t.station.ActionsStay →
      (t.executeBlocks n).1.path.Unbroken t.station.machine.position.point
        (t.executeBlocks n).1.station.machine.position.point) ∧
    (∀ (t : Interpreter) (text : String), t.station.ActionsStay →
      (t.process text).1.path.Unbroken t.station.machine.position.point
        (t.process text).1.station.machine.position.point) := by
  refine ⟨?_, ?_, ?_⟩
  · intro s calls hp ha
    have h : s.Traced s.machine.position.point := ⟨.of_nil hp _, ha⟩
    exact (h.actAll calls).1
  · intro t n hp ha
    have h : t.station.Traced t.station.machine.position.point := ⟨.of_nil hp _, ha⟩
    exact (Interpreter.executeBlocks_traced n h).1
  · intro t text ha
    exact (Interpreter.process_traced text ha).1

def feedAction : Action := fun b m => ⟨{ m with feed := (b.param .p).getD m.feed }, [], .ok true⟩

def feedStation : Station := { Station.initial with actions := ⟨[(.int 100, feedAction)]⟩ }

def feedCalls : List Station.Call :=
  let b : Block Number := .empty 1
  [.m (.int 100) { b with params := b.params.set .p (some (.float 50.0)) },
    .g (.int 1) { b with axes := b.axes.set .x (some (.float 5.0)) },
    .g (.int 7) b,
    .g (.int 91) b,
    .g (.int 0) { b with axes := b.axes.set .y (some (.float 2.5)) }]

/-- A feed set by an action, a cut, a code that is refused and an incremental move: two segments. -/
theorem toolpath_unbroken_feedStation :
    feedStation.control.path.segments = [] ∧ feedStation.ActionsStay ∧
    (feedStation.actAll feedCalls).control.path.segments.length = 2 ∧
    (feedStation.actAll feedCalls).control.path.Unbroken feedStation.machine.position.point
      (feedStation.actAll feedCalls).machine.position.point := by
  have ha : feedStation.ActionsStay := by
    intro code a h b m
    obtain ⟨e, he, rfl⟩ := Option.map_eq_some_iff.mp h
    have hm := List.mem_of_find?_eq_some he
    rw [List.mem_singleton.mp hm]
    rfl
  exact ⟨rfl, ha, by decide +kernel, toolpath_unbroken.1 feedStation feedCalls rfl ha⟩

end Machining
