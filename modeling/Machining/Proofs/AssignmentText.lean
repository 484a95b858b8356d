import Machining.Expression.Assignment
import Machining.Proofs.Calls

namespace Machining.Expression
open Text
open Token (dropWhile_ne_isEmpty takeWhile_ne_split not_mem_takeWhile_ne)

variable {cs rest : List Char} {text : String} {a : Assignment}

def Blank (cs : List Char) : Prop := ∀ c ∈ cs, isBlank c = true

/-- A reference is taken whole, and no more than that unless further digits follow. -/
theorem targetPart_text (r : Reference) (h : ∀ c ∈ rest.head?, isDigit c = false) :
    targetPart (r.text ++ rest) = r.text := by
  cases r with
  | number ds hne hd =>
    obtain ⟨htake, -⟩ := Decimal.takeWhile_row hd h
    obtain ⟨d, ds, rfl⟩ := List.exists_cons_of_ne_nil hne
    have hbracket : d ≠ '<' := by
      rintro rfl
      have hdigit : isDigit '<' = false := by decide
      rw [hd '<' List.mem_cons_self] at hdigit
      cases hdigit
    have hdigits : targetPart ('#' :: ((d :: ds) ++ rest)) =
        if (((d :: ds) ++ rest).takeWhile isDigit).isEmpty then []
        else '#' :: ((d :: ds) ++ rest).takeWhile isDigit := by
      rw [List.cons_append, targetPart]
      simpa using hbracket
    rw [htake] at hdigits
    exact hdigits
  | name s hne hs =>
    obtain ⟨htake, hdrop⟩ := takeWhile_ne hs rest
    have hsplit : (Reference.name s hne hs).text ++ rest = '#' :: '<' :: (s ++ '>' :: rest) := by
      simp [Reference.text, Reference.body]
    rw [hsplit, targetPart]
    simp only [htake, hdrop]
    simp [hne, Reference.text, Reference.body]

theorem targetPart_cases (cs : List Char) :
    targetPart cs = [] ∨ ∃ (r : Reference) (rest : List Char), targetPart cs = r.text ∧
    cs = r.text ++ rest := by
  fun_cases targetPart cs with
  | case1 cs name hnone => exact .inl rfl
  | case2 cs name hname =>
    rw [Bool.or_eq_true, not_or, List.isEmpty_iff, dropWhile_ne_isEmpty, not_not] at hname
    obtain ⟨rest, hrest⟩ := takeWhile_ne_split hname.2
    refine .inr ⟨.name name hname.1 (not_mem_takeWhile_ne '>' cs), rest, rfl, ?_⟩
    nth_rewrite 1 [hrest]
    simp [Reference.text, Reference.body, name]
  | case3 cs hopen ds hnone => exact .inl rfl
  | case4 cs hopen ds hds =>
    refine .inr ⟨.number ds (by simpa using hds) (Decimal.digits_takeWhile cs),
      cs.dropWhile isDigit, rfl, ?_⟩
    simp [Reference.text, Reference.body, ds]
  | case5 => exact .inl rfl

abbrev firstLine (cs : List Char) : List Char := cs.takeWhile (· ≠ '\n')

theorem firstLine_split (cs : List Char) :
    ∃ more, cs = firstLine cs ++ more ∧ '\n' ∉ firstLine cs ∧ ∀ c ∈ more.head?, c = '\n' := by
  refine ⟨cs.dropWhile (· ≠ '\n'), List.takeWhile_append_dropWhile.symm,
    not_mem_takeWhile_ne _ _, ?_⟩
  intro c hc
  have hhead := List.head?_dropWhile_not (fun d => decide (d ≠ '\n')) cs
  rw [Option.mem_def.mp hc] at hhead
  simpa using hhead

theorem firstLine_append {e more : List Char} (line : '\n' ∉ e)
    (further : ∀ c ∈ more.head?, c = '\n') : firstLine (e ++ more) = e := by
  refine (Decimal.takeWhile_row (fun c hc => ?_) (fun c hc => ?_)).1
  · simpa using ne_of_mem_of_not_mem hc line
  · simp [further c hc]

/-- The text of an assignment, without the blanks at its ends. Behind the expression there is at
most a line break and whatever follows it. -/
inductive Assignment.Spelled : List Char → Assignment → Prop where
  | parts (r : Reference) {left right e more : List Char} (before : Blank left)
      (behind : Blank right) (solid : ∃ c tail, e = c :: tail ∧ isBlank c = false) (line : '\n' ∉ e)
      (further : ∀ c ∈ more.head?, c = '\n') :
      Spelled (r.text ++ (left ++ '=' :: (right ++ (e ++ more)))) ⟨String.ofList r.text,
        String.ofList e⟩

namespace Assignment

theorem ofText?_of_spelled (h : Spelled (trim text.toList) a) : ofText? text = some a := by
  unfold ofText?
  generalize trim text.toList = cs at h ⊢
  cases h with
  | @parts r left right e more before behind solid line further =>
    -- a blank or the equals sign ends a row of digits
    have hstops : ∀ c ∈ (left ++ '=' :: (right ++ (e ++ more))).head?, isDigit c = false := by
      cases left with
      | nil =>
        have hdigit : isDigit '=' = false := by decide
        simpa using hdigit
      | cons b left => simpa using (apart_of_isBlank before b List.mem_cons_self).2.2
    have htarget : r.text ≠ [] := by simp [Reference.text]
    have hequals : trimStart (left ++ '=' :: (right ++ (e ++ more))) =
        '=' :: (right ++ (e ++ more)) := by
      rw [trimStart_append (by decide), trimStart_blank before, List.nil_append]
    have hright : trimStart (right ++ (e ++ more)) = e ++ more := by
      obtain ⟨c, tail, rfl, hc⟩ := solid
      rw [List.cons_append, trimStart_append hc, trimStart_blank behind, List.nil_append]
    have hpresent : e ≠ [] := by
      obtain ⟨c, tail, rfl, -⟩ := solid
      exact List.cons_ne_nil c tail
    simp only [targetPart_text r hstops, List.drop_left, hequals, hright,
      firstLine_append line further]
    rw [if_neg (by simpa using htarget), if_neg (by simpa using hpresent)]

theorem spelled_of_ofText? (h : ofText? text = some a) : Spelled (trim text.toList) a := by
  unfold ofText? at h
  generalize trim text.toList = cs at h ⊢
  simp only at h
  split at h
  · cases h
  · rename_i htarget
    rcases targetPart_cases cs with hnone | ⟨r, rest, hr, rfl⟩
    · simp [hnone] at htarget
    · rw [hr, List.drop_left] at h
      split at h
      · rename_i tail hequals
        split at h
        · cases h
        · rename_i hpresent
          obtain rfl := Option.some.inj h
          obtain ⟨left, hleft, before⟩ := trimStart_split rest
          obtain ⟨right, hright, behind⟩ := trimStart_split tail
          obtain ⟨more, hmore, line, further⟩ := firstLine_split (trimStart tail)
          -- behind the blanks no line break can come first, nor any other blank
          have solid : ∃ c e, firstLine (trimStart tail) = c :: e ∧ isBlank c = false := by
            obtain ⟨c, e, he⟩ := List.exists_cons_of_ne_nil (mt List.isEmpty_iff.mpr hpresent)
            exact ⟨c, e, he, trimStart_head (hmore.trans (congrArg (· ++ more) he))⟩
          have hspelled := Spelled.parts r before behind solid line further
          rwa [← hmore, ← hright, ← hequals, ← hleft] at hspelled
      · cases h

/-- Assignments are read from texts that spell them, and from no others. -/
theorem ofText?_eq_some_iff : ofText? text = some a ↔ Spelled (trim text.toList) a :=
  ⟨spelled_of_ofText?, ofText?_of_spelled⟩

/-- An assignment on a single line, with blanks at the ends of the line. -/
theorem spelled_of_trimmed (r : Reference) {e : String} {left right before after : List Char}
    (he : Trimmed e) (line : '\n' ∉ e.toList) (hbefore : Blank before) (hleft : Blank left)
    (hright : Blank right) (hafter : Blank after)
    (h : text.toList = before ++ (r.text ++ (left ++ '=' :: (right ++ (e.toList ++ after))))) :
    Spelled (trim text.toList) ⟨String.ofList r.text, e⟩ := by
  obtain ⟨solid, init, d, hlast, hd⟩ := solid_of_trim he.2 (by simpa using he.1)
  have htrim : trim text.toList = r.text ++ (left ++ '=' :: (right ++ e.toList)) := by
    have hends : ∃ init d, r.text ++ (left ++ '=' :: (right ++ e.toList)) = init ++ [d] ∧
        isBlank d = false :=
      ⟨r.text ++ (left ++ '=' :: (right ++ init)), d, by simp [hlast], hd⟩
    have hwhole : text.toList = before ++
        ((r.text ++ (left ++ '=' :: (right ++ e.toList))) ++ after) := by simp [h]
    rw [hwhole]
    exact trim_between hbefore ⟨'#', _, rfl, by decide⟩ hends hafter
  have hnone : ∀ c ∈ ([] : List Char).head?, c = '\n' := by simp
  have hspelled := Spelled.parts r hleft hright solid line hnone
  rwa [List.append_nil, String.ofList_toList, ← htrim] at hspelled

theorem isAssignment_of_spelled (h : Spelled (trim text.toList) a) : isAssignment text = true := by
  obtain ⟨pre, post, hsplit, -, hpre, -⟩ := trim_split text.toList
  -- only blanks stand before the hash, whatever equals signs the name may hold
  have hblank : ∀ c ∈ pre, decide (c ≠ '=') = true := by
    intro c hc
    have hsolid : isBlank '=' = false := by decide
    have hne : c ≠ '=' := by
      intro heq
      rw [← heq, hpre c hc] at hsolid
      cases hsolid
    simpa using hne
  generalize trim text.toList = cs at h hsplit
  cases h with
  | @parts r left right e more before behind solid line further =>
    have hhash : '#' ∈ text.toList.takeWhile (· ≠ '=') := by
      rw [hsplit, List.append_assoc, List.takeWhile_append_of_pos hblank]
      simp [Reference.text]
    have hequals : '=' ∈ text.toList := by simp [hsplit]
    simp only [isAssignment, Bool.and_eq_true, List.contains_iff_mem]
    exact ⟨hequals, hhash⟩

/-- An assignment on a line, with any blanks around its parts, is read back as these parts.
Conversely, whatever is read has a reference as its target and an expression that is not empty and
reaches to the end of its line. They stand in this order in the trimmed text, with an equals sign
between them, and a hash comes before the first equals sign of the text. -/
theorem parts_readBack (text : String) :
    (∀ (r : Reference) (e : String) (before left right after : List Char),
      Trimmed e → '\n' ∉ e.toList →
      Blank before → Blank left → Blank right → Blank after →
      text.toList = before ++ (r.text ++ (left ++ '=' :: (right ++ (e.toList ++ after)))) →
      ofText? text = some ⟨String.ofList r.text, e⟩) ∧
    ∀ target e : String, ofText? text = some ⟨target, e⟩ →
      (∃ r : Reference, target = String.ofList r.text) ∧ e ≠ "" ∧ '\n' ∉ e.toList ∧
      (∃ left right more, Blank left ∧ Blank right ∧ (∀ c ∈ more.head?, c = '\n') ∧
        trim text.toList = target.toList ++ (left ++ '=' :: (right ++ (e.toList ++ more)))) ∧
      isAssignment text = true := by
  constructor
  · intro r e before left right after he line hbefore hleft hright hafter h
    exact ofText?_eq_some_iff.mpr (spelled_of_trimmed r he line hbefore hleft hright hafter h)
  · intro target e h
    have hspelled := ofText?_eq_some_iff.mp h
    have hrecognised := isAssignment_of_spelled hspelled
    generalize trim text.toList = cs at hspelled ⊢
    cases hspelled with
    | @parts r left right e more before behind solid line further =>
      have hpresent : String.ofList e ≠ "" := by
        obtain ⟨c, tail, rfl, -⟩ := solid
        simp
      refine ⟨⟨r, rfl⟩, hpresent,
        by simpa using line, ⟨left, right, more, before, behind, further, ?_⟩, hrecognised⟩
      rw [String.toList_ofList, String.toList_ofList]

/-- Equals signs and a hash in the name and in the expression. -/
theorem parts_readBack_equals :
    Trimmed "=#2=3" ∧ '\n' ∉ "=#2=3".toList ∧ Blank [' '] ∧ Blank ['\t'] ∧ Blank ['\n'] ∧
    ofText? " #<a=#b>\t= =#2=3\n" = some ⟨"#<a=#b>", "=#2=3"⟩ ∧
    isAssignment " #<a=#b>\t= =#2=3\n" = true := by
  have htrimmed : Trimmed "=#2=3" := ⟨by decide, by decide⟩
  have hline : '\n' ∉ "=#2=3".toList := by decide
  have hspace : Blank [' '] := by simp [Blank, isBlank]
  have htab : Blank ['\t'] := by simp [Blank, isBlank]
  have hbreak : Blank ['\n'] := by simp [Blank, isBlank]
  have hparts : ofText? " #<a=#b>\t= =#2=3\n" = some ⟨"#<a=#b>", "=#2=3"⟩ :=
    (parts_readBack _).1 (.name "a=#b".toList (by decide) (by decide)) _ _ _ _ _ htrimmed hline
      hspace htab hspace
      hbreak (by decide)
  exact ⟨htrimmed, hline, hspace, htab, hbreak, hparts, ((parts_readBack _).2 _ _ hparts).2.2.2.2⟩

end Assignment

end Machining.Expression
