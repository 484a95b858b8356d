import Machining.Proofs.ShownNames

namespace Machining.Parameters

def updates (cs : List Change) : List Change := cs.filter Change.isUpdate

theorem clearUser_updateSystem (p : Parameters) (n : Int) (v : Number) :
    (p.updateSystem n v).clearUser = p.clearUser.updateSystem n v := by
  by_cases hn : p.system.contains n = true
  · rw [updateSystem, updateSystem, if_pos hn,
      if_pos (show p.clearUser.system.contains n = true from hn)]
    rfl
  · rw [updateSystem, updateSystem, if_neg hn,
      if_neg (show ¬ p.clearUser.system.contains n = true from hn)]

theorem clearUser_updatePredefined (p : Parameters) (name : String) (v : Number) :
    (p.updatePredefined name v).clearUser = p.clearUser.updatePredefined name v := by
  by_cases hname : p.predefined.contains name = true
  · rw [updatePredefined, updatePredefined, if_pos hname,
      if_pos (show p.clearUser.predefined.contains name = true from hname)]
    rfl
  · rw [updatePredefined, updatePredefined, if_neg hname,
      if_neg (show ¬ p.clearUser.predefined.contains name = true from hname)]

theorem clearUser_congr {p q : Parameters} (hsystem : q.system = p.system)
    (hpredefined : q.predefined = p.predefined) : q.clearUser = p.clearUser := by
  rw [clearUser, clearUser, hsystem, hpredefined]

/-- The machine's write comes to the same before and after clearing, and nothing of a program's
request is left. -/
theorem clearUser_apply (p : Parameters) (c : Change) :
    (c.apply p).clearUser = if c.isUpdate then c.apply p.clearUser else p.clearUser := by
  rcases c.isUpdate_cases with hc | ⟨n, v, rfl⟩ | ⟨name, v, rfl⟩
  · obtain ⟨hsystem, hpredefined⟩ := c.apply_kept hc p
    rw [hc, clearUser_congr hsystem hpredefined]
    rfl
  · exact clearUser_updateSystem p n v
  · exact clearUser_updatePredefined p name v

/-- Clearing at the end leaves what the machine's writes make of parameters that were cleared at the
start. -/
theorem clearUser_foldl (p : Parameters) (cs : List Change) :
    (cs.foldl Change.apply p).clearUser = (updates cs).foldl Change.apply p.clearUser := by
  induction cs generalizing p with
  | nil => rfl
  | cons c cs ih =>
    rw [List.foldl_cons, ih, clearUser_apply, updates, updates, List.filter_cons]
    split <;> rfl

theorem updates_updates (cs : List Change) : updates (updates cs) = updates cs := by
  simp [updates]

/-- From any parameters, what the machine keeps after some requests is what its own writes among
them leave. From new parameters, clearing in the end leaves nothing else: all parameters, what
expressions find and what is listed are as if there had been no other requests than those writes. -/
theorem run_clearUser (p : Parameters) (cs : List Change) :
    (cs.foldl Change.apply p).system = ((updates cs).foldl Change.apply p).system ∧
    (cs.foldl Change.apply p).predefined = ((updates cs).foldl Change.apply p).predefined ∧
    run (cs ++ [.clearUser]) = run (updates cs) ∧
    (∀ r, (run (cs ++ [.clearUser])).get r = (run (updates cs)).get r) ∧
    (run (cs ++ [.clearUser])).bindings = (run (updates cs)).bindings ∧
    ∀ s, (run (cs ++ [.clearUser])).listing s = (run (updates cs)).listing s := by
  have hkept : (cs.foldl Change.apply p).clearUser =
      ((updates cs).foldl Change.apply p).clearUser := by
    rw [clearUser_foldl, clearUser_foldl, updates_updates]
  have hrun : run (cs ++ [.clearUser]) = run (updates cs) := by
    rw [run_concat]
    exact clearUser_foldl initial cs
  have hsystem := congrArg system hkept
  have hpredefined := congrArg predefined hkept
  refine ⟨hsystem, hpredefined, hrun, ?_⟩
  rw [hrun]
  exact ⟨fun _ => rfl, rfl, fun _ => rfl⟩

end Machining.Parameters
