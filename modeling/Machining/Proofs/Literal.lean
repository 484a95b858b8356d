import Machining.Expression.Term
import Machining.Proofs.ReadBack

namespace Machining.Expression

/-- A numeral ends before this text. -/
def Ends (rest : List Char) : Prop := ∀ c ∈ rest.head?, isWordLike c = false ∧ c ≠ '.'

def numeralAlphabet : List Char :=
  ['0', '1', '2', '3', '4', '5', '6', '7', '8', '9', 'a', 'b', 'c', 'd', 'e', 'f', 'A', 'B', 'C',
    'D', 'E', 'F', 'x', 'X', 'o', 'O', 'j', 'J', '_', '.', '+', '-']

variable {cs ds rest : List Char} {c : Char} {kind : String}

theorem isAlphanum_of_isWordLike (h : isWordLike c = false) : c ≠ '_' ∧ c.isAlphanum = false := by
  simp only [isWordLike, Bool.or_eq_false_iff, decide_eq_false_iff_not] at h
  exact h.1

theorem isDigit_of_isAlphanum (h : c.isAlphanum = false) : c.isDigit = false :=
  (Bool.or_eq_false_iff.mp h).2

theorem ne_of_isDigit {d : Char} (h : c.isDigit = true) (hd : d.isDigit = false) : c ≠ d := by
  rintro rfl
  rw [h] at hd
  cases hd

/-- What holds of the characters below 128 one by one holds of them all. -/
theorem ascii_forall {p : Char → Bool} (hall : ∀ n < 128, p (Char.ofNat n) = true)
    (h : c.toNat < 128) : p c = true := by
  have := hall c.toNat h
  rwa [Char.ofNat_toNat] at this

theorem le_toLower (c : Char) : c.toNat ≤ c.toLower.toNat := by
  unfold Char.toLower
  split
  · rename_i h
    change c.val.toNat ≤ (c.val + 32).toNat
    have hle : c.val.toNat ≤ 90 := UInt32.le_iff_toNat_le.mp h.2
    rw [UInt32.toNat_add]
    change _ ≤ (c.val.toNat + 32) % 2 ^ 32
    omega
  · exact le_refl _

namespace Radix
variable {r : Radix} {due free : Bool}

theorem mem_alphabet (h : r.isDigit c = true) : c ∈ numeralAlphabet := by
  have hsmall : c.toNat < 128 := by
    simp only [isDigit, Bool.and_eq_true, Bool.or_eq_true, decide_eq_true_eq] at h
    rcases h.1 with hdigit | ⟨-, hletter⟩
    · simp only [Char.isDigit, Bool.and_eq_true, decide_eq_true_eq] at hdigit
      exact lt_of_le_of_lt (UInt32.le_iff_toNat_le.mp hdigit.2) (by decide)
    · have := le_toLower c
      omega
  have hall : ∀ n < 128, (!r.isDigit (Char.ofNat n) || numeralAlphabet.contains (Char.ofNat n)) =
      true := by
    cases r <;> decide +kernel
  have := ascii_forall (p := fun c => !r.isDigit c || numeralAlphabet.contains c) hall hsmall
  simpa [h] using this

theorem isDigit_of_isWordLike (h : isWordLike c = false) : r.isDigit c = false := by
  rw [Bool.eq_false_iff]
  intro hdigit
  have hword : numeralAlphabet.all (fun c => isWordLike c || !r.isDigit c) = true := by
    cases r <;> decide +kernel
  have := List.all_eq_true.mp hword c (mem_alphabet hdigit)
  simp [h, hdigit] at this

theorem row_append (h : Ends rest) : r.row due free (cs ++ rest) = r.row due free cs := by
  induction cs generalizing due free with
  | nil =>
    cases rest with
    | nil => rfl
    | cons c rest =>
      obtain ⟨hword, -⟩ := h c rfl
      obtain ⟨hbar, halnum⟩ := isAlphanum_of_isWordLike hword
      simp [row, isDigit_of_isWordLike hword, isDigit_of_isAlphanum halnum, hbar]
  | cons c cs ih => simp only [List.cons_append, row, ih]

/-- A row is a part of its text, made of digits and underscores. -/
theorem row_spec (h : r.row due free cs = .ok ds) : ds <+: cs ∧ ∀ c ∈ ds, c ∈ numeralAlphabet := by
  induction cs generalizing due free ds with
  | nil =>
    rw [row] at h
    split at h
    · cases h
    · cases h
      exact ⟨List.nil_prefix, by simp⟩
  | cons c cs ih =>
    have hstep {due free : Bool} (hc : c ∈ numeralAlphabet)
        (h : (row r due free cs).map (c :: ·) = .ok ds) :
        ds <+: c :: cs ∧ ∀ c ∈ ds, c ∈ numeralAlphabet := by
      cases hrow : row r due free cs with
      | error e =>
        rw [hrow] at h
        cases h
      | ok more =>
        rw [hrow] at h
        cases h
        obtain ⟨hsplit, hmem⟩ := ih hrow
        exact ⟨(List.prefix_cons_inj c).mpr hsplit, List.forall_mem_cons.mpr ⟨hc, hmem⟩⟩
    rw [row] at h
    split at h
    · exact hstep (mem_alphabet ‹_›) h
    · split at h
      · cases h
      · split at h
        · rename_i hbar
          exact hstep (by simp only [Bool.and_eq_true,
            decide_eq_true_eq] at hbar; rw [hbar.2]; decide) h
        · split at h
          · cases h
          · cases h
            exact ⟨List.nil_prefix, by simp⟩

end Radix

theorem startsDigit_append (h : Ends rest) : startsDigit (cs ++ rest) = startsDigit cs := by
  cases cs with
  | nil =>
    cases rest with
    | nil => rfl
    | cons c rest => exact isDigit_of_isAlphanum (isAlphanum_of_isWordLike (h c rfl).1).2
  | cons c cs => rfl

theorem isPrefixOf_append {word : List Char} (hword : ∀ c ∈ word, isWordLike c = true)
    (h : Ends rest) : word.isPrefixOf (cs ++ rest) = word.isPrefixOf cs := by
  induction word generalizing cs with
  | nil => rfl
  | cons w word ih =>
    cases cs with
    | nil =>
      cases rest with
      | nil => rfl
      | cons c rest =>
        have hne : w ≠ c := by
          rintro rfl
          have := (h w rfl).1
          rw [hword w List.mem_cons_self] at this
          cases this
        simp [List.isPrefixOf, hne]
    | cons c cs => simp [List.isPrefixOf, ih fun c hc => hword c (List.mem_cons_of_mem _ hc)]

theorem startsWord_append {word : String} (hword : ∀ c ∈ word.toList, isWordLike c = true)
    (h : Ends rest) : startsWord word (cs ++ rest) = startsWord word cs := by
  unfold startsWord
  rw [isPrefixOf_append hword h]
  cases hsplit : word.toList.isPrefixOf cs with
  | false => rfl
  | true =>
    obtain ⟨tail, rfl⟩ := List.isPrefixOf_iff_prefix.mp hsplit
    have hdrop (cs : List Char) : (word.toList ++ cs).drop word.length = cs :=
      List.drop_left' (String.length_toList)
    rw [List.append_assoc, hdrop, hdrop]
    cases tail with
    | nil =>
      cases rest with
      | nil => rfl
      | cons c rest => simp [(h c rfl).1]
    | cons c tail => rfl

theorem mayFollow_append (h : Ends rest) : mayFollow (cs ++ rest) = mayFollow cs := by
  have hwords (words : List String) (hall : words.all (fun w => w.toList.all isWordLike) = true) :
      (words.any fun w => startsWord w (cs ++ rest)) = (words.any fun w => startsWord w cs) ∧
        (words.any fun w => w.toList.isPrefixOf (cs ++ rest)) =
          (words.any fun w => w.toList.isPrefixOf cs) := by
    induction words with
    | nil => exact ⟨rfl, rfl⟩
    | cons w words ih =>
      simp only [List.all_cons, Bool.and_eq_true] at hall
      have hw := List.all_eq_true.mp hall.1
      simp only [List.any_cons, startsWord_append hw h, isPrefixOf_append hw h, ih hall.2, and_self]
  unfold mayFollow
  rw [(hwords _ (by decide +kernel)).1, (hwords _ (by decide +kernel)).2]

theorem checkEnd_append (h : Ends rest) : checkEnd kind (cs ++ rest) = checkEnd kind cs := by
  unfold checkEnd
  rw [mayFollow_append h]
  cases cs with
  | nil =>
    cases rest with
    | nil => rfl
    | cons c rest =>
      obtain ⟨hbar, halnum⟩ := isAlphanum_of_isWordLike (h c rfl).1
      simp [hbar, halnum]
  | cons c cs => rfl

theorem fractionRow_append (h : Ends rest) : fractionRow (cs ++ rest) = fractionRow cs := by
  cases cs with
  | nil =>
    cases rest with
    | nil => rfl
    | cons c rest =>
      have hc := (h c rfl).2
      rw [List.nil_append]
      unfold fractionRow
      split
      · rename_i heq
        exact absurd (List.cons.inj heq).1 hc
      · rfl
  | cons c cs =>
    unfold fractionRow
    rw [List.cons_append]
    split
    · rename_i heq
      obtain ⟨rfl, rfl⟩ := List.cons.inj heq
      simp only [startsDigit_append h, Radix.row_append h]
    · split
      · rename_i hne _ _ heq
        obtain ⟨rfl, rfl⟩ := List.cons.inj heq
        exact absurd rfl (hne _)
      · rfl

theorem fractionRow_spec (h : fractionRow cs = .ok ds) :
    ds <+: cs ∧ ∀ c ∈ ds, c ∈ numeralAlphabet := by
  unfold fractionRow at h
  split at h
  · rename_i behind
    split at h
    · cases hrow : Radix.decimal.row true false behind with
      | error e =>
        rw [hrow] at h
        cases h
      | ok places =>
        rw [hrow] at h
        cases h
        obtain ⟨hsplit, hmem⟩ := Radix.row_spec hrow
        exact ⟨(List.prefix_cons_inj '.').mpr hsplit, List.forall_mem_cons.mpr ⟨by decide, hmem⟩⟩
    · cases h
      exact ⟨(List.prefix_cons_inj '.').mpr List.nil_prefix, by simp [numeralAlphabet]⟩
  · cases h
    exact ⟨List.nil_prefix, by simp⟩

/-- The sign of an exponent is the head of the text behind the letter. -/
theorem exponentSign_spec (cs : List Char) :
    ∃ behind, cs = exponentSign cs ++ behind ∧ cs.drop (exponentSign cs).length = behind ∧
      ∀ c ∈ exponentSign cs, c ∈ numeralAlphabet := by
  refine ⟨cs.drop (exponentSign cs).length, ?_, rfl, ?_⟩
  · unfold exponentSign
    split <;> rfl
  · unfold exponentSign
    split <;> simp [numeralAlphabet]

theorem exponentRow_spec (h : exponentRow cs = .ok ds) :
    ds <+: cs ∧ ∀ c ∈ ds, c ∈ numeralAlphabet := by
  unfold exponentRow at h
  split at h
  · rename_i e cs
    split at h
    · rename_i he
      have hletter : e ∈ numeralAlphabet := by rcases he with rfl | rfl <;> decide
      obtain ⟨behind, hcs, hdrop, hsign⟩ := exponentSign_spec cs
      simp only [hdrop] at h
      split at h
      · cases hrow : Radix.decimal.row true false behind with
        | error e =>
          rw [hrow] at h
          cases h
        | ok digits =>
          rw [hrow] at h
          cases h
          obtain ⟨hsplit, hmem⟩ := Radix.row_spec hrow
          constructor
          · nth_rewrite 2 [hcs]
            exact (List.prefix_cons_inj e).mpr ((List.prefix_append_right_inj _).mpr hsplit)
          · exact List.forall_mem_cons.mpr ⟨hletter, List.forall_mem_append.mpr ⟨hsign, hmem⟩⟩
      · split at h
        · cases hend : checkEnd "decimal" (e :: cs) with
          | error e =>
            rw [hend] at h
            cases h
          | ok _ =>
            rw [hend] at h
            cases h
            exact ⟨List.nil_prefix, by simp⟩
        · cases h
    · cases h
      exact ⟨List.nil_prefix, by simp⟩
  · cases h
    exact ⟨List.nil_prefix, by simp⟩

/-- A sign goes on with an exponent only behind its letter, where a row without digits is
refused. -/
theorem exponentRow_append (h : Ends rest)
    (hsign : exponentSign rest = [] ∨ ∃ ds, exponentRow cs = .ok ds) :
    exponentRow (cs ++ rest) = exponentRow cs := by
  cases cs with
  | nil =>
    cases rest with
    | nil => rfl
    | cons c rest =>
      have hword := (h c rfl).1
      have hne : ¬ (c = 'e' ∨ c = 'E') := by rintro (rfl | rfl) <;> cases hword
      rw [List.nil_append, exponentRow, if_neg hne]
      rfl
  | cons e cs =>
    rw [List.cons_append, exponentRow, exponentRow]
    split
    · rename_i he
      have hsign' : exponentSign (cs ++ rest) = exponentSign cs := by
        cases cs with
        | nil =>
          rcases hsign with hnone | ⟨ds, hrow⟩
          · exact hnone
          · rcases he with rfl | rfl <;> cases hrow
        | cons c cs =>
          unfold exponentSign
          split <;> split <;> simp_all
      obtain ⟨behind, hcs, hdrop, -⟩ := exponentSign_spec cs
      have hdrop' : (cs ++ rest).drop (exponentSign cs).length = behind ++ rest := by
        have hlength := congrArg List.length hcs
        rw [List.length_append] at hlength
        rw [List.drop_append_of_le_length (by omega), hdrop]
      simp only [hsign', hdrop, hdrop', startsDigit_append h, Radix.row_append h]
      rw [← List.cons_append, checkEnd_append h]
    · rfl

def realNumeral (whole fraction exponent behind : List Char) : Except String FoundNumeral := do
  let size := whole.length + fraction.length + exponent.length
  if fraction.isEmpty ∧ exponent.isEmpty then
    if hasLeadingZero whole behind then
      .error ("leading zeros in decimal integer literals are not permitted; "
        ++ "use an 0o prefix for octal integers")
    else
      checkEnd "decimal" behind
      return ⟨wholeNumeral whole, size⟩
  else
    checkEnd "decimal" behind
    return ⟨.real (.float (decimalValue whole fraction exponent)), size⟩

def imaginaryNumeral (whole fraction exponent behind : List Char) : Except String FoundNumeral := do
  checkEnd "imaginary" behind
  return ⟨.imaginary (decimalValue whole fraction exponent),
    whole.length + fraction.length + exponent.length + 1⟩

def closeNumeral (whole fraction exponent behind : List Char) : Except String FoundNumeral :=
  match behind with
  | c :: more =>
    if c = 'j' ∨ c = 'J' then imaginaryNumeral whole fraction exponent more
    else realNumeral whole fraction exponent behind
  | [] => realNumeral whole fraction exponent behind

def wholeRow (cs : List Char) : Except String (List Char) :=
  if startsDigit cs then Radix.decimal.row true false cs else .ok []

theorem wholeRow_spec (h : wholeRow cs = .ok ds) : ds <+: cs ∧ ∀ c ∈ ds, c ∈ numeralAlphabet := by
  unfold wholeRow at h
  split at h
  · exact Radix.row_spec h
  · cases h
    exact ⟨List.nil_prefix, by simp⟩

theorem decimalNumeral_eq (cs : List Char) : decimalNumeral cs = (do
    let whole ← wholeRow cs
    let fraction ← fractionRow (cs.drop whole.length)
    let exponent ← exponentRow (cs.drop (whole.length + fraction.length))
    closeNumeral whole fraction exponent
      (cs.drop (whole.length + fraction.length + exponent.length))) := by
  unfold decimalNumeral wholeRow
  split <;> rfl

section
variable {whole fraction exponent : List Char} {found : FoundNumeral}

structure DecimalParts (cs whole fraction exponent : List Char) : Prop where
  wholeRow_eq : wholeRow cs = .ok whole
  fractionRow_eq : fractionRow (cs.drop whole.length) = .ok fraction
  exponentRow_eq : exponentRow (cs.drop (whole.length + fraction.length)) = .ok exponent

theorem DecimalParts.numeral_eq (h : DecimalParts cs whole fraction exponent) :
    decimalNumeral cs =
      closeNumeral whole fraction exponent
        (cs.drop (whole.length + fraction.length + exponent.length)) := by
  simp only [decimalNumeral_eq, bind, Except.bind, h.wholeRow_eq, h.fractionRow_eq,
    h.exponentRow_eq]

theorem parts_of_decimalNumeral (h : decimalNumeral cs = .ok found) :
    ∃ whole fraction exponent, DecimalParts cs whole fraction exponent := by
  simp only [decimalNumeral_eq, bind, Except.bind] at h
  cases hwhole : wholeRow cs with
  | error e =>
    rw [hwhole] at h
    cases h
  | ok whole =>
    simp only [hwhole] at h
    cases hfraction : fractionRow (cs.drop whole.length) with
    | error e =>
      rw [hfraction] at h
      cases h
    | ok fraction =>
      simp only [hfraction] at h
      cases hexponent : exponentRow (cs.drop (whole.length + fraction.length)) with
      | error e =>
        rw [hexponent] at h
        cases h
      | ok exponent => exact ⟨whole, fraction, exponent, hwhole, hfraction, hexponent⟩

/-- The parts of a numeral stand one behind the other. -/
theorem DecimalParts.split (h : DecimalParts cs whole fraction exponent) :
    ∃ behind, cs = whole ++ fraction ++ exponent ++ behind ∧
      ∀ c ∈ whole ++ fraction ++ exponent, c ∈ numeralAlphabet := by
  obtain ⟨⟨tail, rfl⟩, hmem⟩ := wholeRow_spec h.wholeRow_eq
  have hfraction := h.fractionRow_eq
  rw [List.drop_left] at hfraction
  obtain ⟨⟨tail, rfl⟩, hmem'⟩ := fractionRow_spec hfraction
  have hexponent := h.exponentRow_eq
  rw [← List.append_assoc, ← List.length_append, List.drop_left] at hexponent
  obtain ⟨⟨behind, rfl⟩, hmem''⟩ := exponentRow_spec hexponent
  refine ⟨behind, by simp only [List.append_assoc], ?_⟩
  exact List.forall_mem_append.mpr ⟨List.forall_mem_append.mpr ⟨hmem, hmem'⟩, hmem''⟩

theorem DecimalParts.append (h : DecimalParts cs whole fraction exponent) (hrest : Ends rest) :
    DecimalParts (cs ++ rest) whole fraction exponent := by
  obtain ⟨behind, hcs, -⟩ := h.split
  have hlength := congrArg List.length hcs
  simp only [List.length_append] at hlength
  constructor
  · rw [wholeRow, startsDigit_append hrest, Radix.row_append hrest]
    exact h.wholeRow_eq
  · rw [List.drop_append_of_le_length (by omega), fractionRow_append hrest]
    exact h.fractionRow_eq
  · rw [List.drop_append_of_le_length (by omega)]
    exact (exponentRow_append hrest (.inr ⟨_, h.exponentRow_eq⟩)).trans h.exponentRow_eq

theorem realNumeral_append (hrest : Ends rest) :
    realNumeral whole fraction exponent (cs ++ rest) = realNumeral whole fraction exponent cs := by
  have hzero : hasLeadingZero whole (cs ++ rest) = hasLeadingZero whole cs := by
    unfold hasLeadingZero
    cases cs with
    | nil =>
      cases rest with
      | nil => rfl
      | cons c rest =>
        have hne : c ≠ 'e' := by
          rintro rfl
          cases (hrest 'e' rfl).1
        simp [hne]
    | cons c cs => rfl
  simp only [realNumeral, hzero, checkEnd_append hrest]

theorem closeNumeral_append (hrest : Ends rest) :
    closeNumeral whole fraction exponent (cs ++ rest) =
      closeNumeral whole fraction exponent cs := by
  have hreal : realNumeral whole fraction exponent (cs ++ rest) =
      realNumeral whole fraction exponent cs :=
    realNumeral_append hrest
  cases cs with
  | nil =>
    cases rest with
    | nil => rfl
    | cons c rest =>
      have hne : ¬ (c = 'j' ∨ c = 'J') := by rintro (rfl | rfl) <;> cases (hrest _ rfl).1
      exact (if_neg hne).trans hreal
  | cons c cs =>
    rw [List.cons_append] at hreal
    simp only [List.cons_append, closeNumeral, imaginaryNumeral, checkEnd_append hrest, hreal]

/-- No letter behind a leading zero announces a radix. -/
def Plain (cs : List Char) : Prop := ∀ l more, cs = '0' :: l :: more → Radix.ofLetter? l = none

theorem Plain.numeral_eq (h : Plain cs) : numeral cs = decimalNumeral cs := by
  unfold numeral
  split
  · rename_i l more
    rw [h l more rfl]
  · rfl

theorem ofLetter?_eq_none (h : isWordLike c = false) : Radix.ofLetter? c = none := by
  have hsmall : c.toNat < 128 := by
    simp only [isWordLike, Bool.or_eq_false_iff, decide_eq_false_iff_not] at h
    omega
  have := ascii_forall (p := fun c => isWordLike c || (Radix.ofLetter? c).isNone)
    (by decide +kernel) hsmall
  simpa [h] using this

theorem Plain.append (h : Plain cs) (hrest : Ends rest) : Plain (cs ++ rest) := by
  intro l more heq
  rcases cs with - | ⟨z, - | ⟨c, cs⟩⟩
  · rw [List.nil_append] at heq
    have hzero := (hrest '0' (by rw [heq]; rfl)).1
    cases hzero
  · have hl : rest = l :: more := (List.cons.inj heq).2
    exact ofLetter?_eq_none (hrest l (by rw [hl]; rfl)).1
  · obtain ⟨rfl, htail⟩ := List.cons.inj heq
    obtain ⟨rfl, -⟩ := List.cons.inj htail
    exact h c cs rfl

/-- The numeral at the head of a text does not depend on what stands behind its end. -/
theorem numeral_append (h : numeral cs = .ok found) (hrest : Ends rest) :
    numeral (cs ++ rest) = .ok found := by
  by_cases hplain : Plain cs
  · rw [hplain.numeral_eq] at h
    obtain ⟨whole, fraction, exponent, hparts⟩ := parts_of_decimalNumeral h
    obtain ⟨behind, hcs, -⟩ := hparts.split
    have hlength := congrArg List.length hcs
    simp only [List.length_append] at hlength
    rw [(hplain.append hrest).numeral_eq, (hparts.append hrest).numeral_eq,
      List.drop_append_of_le_length (by omega), closeNumeral_append hrest, ← hparts.numeral_eq, h]
  · simp only [Plain, not_forall] at hplain
    obtain ⟨l, more, rfl, hletter⟩ := hplain
    obtain ⟨r, hr⟩ := Option.ne_none_iff_exists'.mp hletter
    simp only [numeral, List.cons_append, hr, Radix.row_append hrest, bind, Except.bind] at h ⊢
    cases hrow : r.row true true more with
    | error e =>
      rw [hrow] at h
      cases h
    | ok ds =>
      simp only [hrow] at h ⊢
      rw [List.drop_append_of_le_length (Radix.row_spec hrow).1.length_le, checkEnd_append hrest]
      exact h

/-- The same whether or not the text starts with a numeral, if no sign stands behind it. -/
theorem numeral_append_eq (hrest : Ends rest) (hsign : exponentSign rest = []) :
    numeral (cs ++ rest) = numeral cs := by
  by_cases hplain : Plain cs
  · rw [hplain.numeral_eq, (hplain.append hrest).numeral_eq, decimalNumeral_eq, decimalNumeral_eq]
    have hwhole : wholeRow (cs ++ rest) = wholeRow cs := by
      rw [wholeRow, startsDigit_append hrest, Radix.row_append hrest]
      rfl
    simp only [hwhole, bind, Except.bind]
    cases hw : wholeRow cs with
    | error e => rfl
    | ok whole =>
      have hle : whole.length ≤ cs.length := (wholeRow_spec hw).1.length_le
      simp only [List.drop_append_of_le_length hle, fractionRow_append hrest]
      cases hf : fractionRow (cs.drop whole.length) with
      | error e => rfl
      | ok fraction =>
        have hle : whole.length + fraction.length ≤ cs.length := by
          have := (fractionRow_spec hf).1.length_le
          rw [List.length_drop] at this
          omega
        simp only [List.drop_append_of_le_length hle, exponentRow_append hrest (.inl hsign)]
        cases he : exponentRow (cs.drop (whole.length + fraction.length)) with
        | error e => rfl
        | ok exponent =>
          have hle : whole.length + fraction.length + exponent.length ≤ cs.length := by
            have := (exponentRow_spec he).1.length_le
            rw [List.length_drop] at this
            omega
          simp only [List.drop_append_of_le_length hle, closeNumeral_append hrest]
  · simp only [Plain, not_forall] at hplain
    obtain ⟨l, more, rfl, hletter⟩ := hplain
    obtain ⟨r, hr⟩ := Option.ne_none_iff_exists'.mp hletter
    simp only [numeral, List.cons_append, hr, Radix.row_append hrest, bind, Except.bind]
    cases hrow : r.row true true more with
    | error e => rfl
    | ok ds =>
      simp only [List.drop_append_of_le_length (Radix.row_spec hrow).1.length_le,
        checkEnd_append hrest]

theorem ofLetter?_mem {r : Radix} (h : Radix.ofLetter? c = some r) : c ∈ numeralAlphabet := by
  have hsmall : c.toNat < 128 := by
    have hle {d : Char} (hd : d.toNat < 128) (hlower : c.toLower = d) : c.toNat < 128 :=
      lt_of_le_of_lt (hlower ▸ le_toLower c) hd
    unfold Radix.ofLetter? at h
    split at h
    · rename_i hb
      exact hle (by decide) hb
    · rename_i ho
      exact hle (by decide) ho
    · rename_i hx
      exact hle (by decide) hx
    · cases h
  have := ascii_forall (p := fun c => (Radix.ofLetter? c).isNone || numeralAlphabet.contains c)
    (by decide +kernel) hsmall
  simpa [h] using this

theorem realNumeral_size (h : realNumeral whole fraction exponent cs = .ok found) :
    found.size = whole.length + fraction.length + exponent.length := by
  have hend {kind : String} {n : Numeral} {size : Nat}
      (h : (do checkEnd kind cs; return ⟨n, size⟩ : Except String FoundNumeral) = .ok found) :
      found.size = size := by
    cases hcheck : checkEnd kind cs with
    | error e =>
      rw [hcheck] at h
      cases h
    | ok _ =>
      rw [hcheck] at h
      cases h
      rfl
  unfold realNumeral at h
  split at h
  · split at h
    · cases h
    · exact hend h
  · exact hend h

/-- What stands behind the parts of a numeral belongs to it only if it is the mark of imaginary
numbers. -/
theorem closeNumeral_split (h : closeNumeral whole fraction exponent cs = .ok found) :
    ∃ mark, mark <+: cs ∧ (∀ c ∈ mark, c ∈ numeralAlphabet) ∧
      found.size = whole.length + fraction.length + exponent.length + mark.length := by
  have hnone (h : realNumeral whole fraction exponent cs = .ok found) : ∃ mark, mark <+: cs ∧
      (∀ c ∈ mark, c ∈ numeralAlphabet) ∧
      found.size = whole.length + fraction.length + exponent.length + mark.length :=
    ⟨[], List.nil_prefix, by simp, realNumeral_size h⟩
  cases cs with
  | nil => exact hnone h
  | cons c more =>
    rw [closeNumeral] at h
    split at h
    · rename_i hmark
      refine ⟨[c], (List.prefix_cons_inj c).mpr List.nil_prefix, ?_, ?_⟩
      · rcases hmark with rfl | rfl <;> simp [numeralAlphabet]
      · unfold imaginaryNumeral at h
        cases hcheck : checkEnd "imaginary" more with
        | error e =>
          rw [hcheck] at h
          cases h
        | ok _ =>
          rw [hcheck] at h
          cases h
          rfl
    · exact hnone h

/-- A numeral is the head of its text, made of the characters of numerals. -/
theorem numeral_split (h : numeral cs = .ok found) :
    ∃ text behind, cs = text ++ behind ∧ found.size = text.length ∧
      ∀ c ∈ text, c ∈ numeralAlphabet := by
  by_cases hplain : Plain cs
  · rw [hplain.numeral_eq] at h
    obtain ⟨whole, fraction, exponent, hparts⟩ := parts_of_decimalNumeral h
    rw [hparts.numeral_eq] at h
    obtain ⟨behind, rfl, hmem⟩ := hparts.split
    rw [← List.length_append, ← List.length_append, List.drop_left] at h
    obtain ⟨mark, ⟨rest, rfl⟩, hmark, hsize⟩ := closeNumeral_split h
    refine ⟨whole ++ fraction ++ exponent ++ mark, rest, by simp only [List.append_assoc], ?_,
      List.forall_mem_append.mpr ⟨hmem, hmark⟩⟩
    simp only [hsize, List.length_append]
  · simp only [Plain, not_forall] at hplain
    obtain ⟨l, more, rfl, hletter⟩ := hplain
    obtain ⟨r, hr⟩ := Option.ne_none_iff_exists'.mp hletter
    simp only [numeral, hr, bind, Except.bind] at h
    cases hrow : r.row true true more with
    | error e =>
      rw [hrow] at h
      cases h
    | ok ds =>
      simp only [hrow] at h
      cases hcheck : checkEnd r.word (more.drop ds.length) with
      | error e =>
        rw [hcheck] at h
        cases h
      | ok _ =>
        rw [hcheck] at h
        cases h
        obtain ⟨⟨rest, rfl⟩, hmem⟩ := Radix.row_spec hrow
        refine ⟨'0' :: l :: ds, rest, rfl, Nat.add_comm 2 _, ?_⟩
        exact List.forall_mem_cons.mpr
          ⟨by decide, List.forall_mem_cons.mpr ⟨ofLetter?_mem hr, hmem⟩⟩

/-- A numeral that takes up a text is made of the characters of numerals. -/
theorem mem_alphabet_of_numeral (h : numeral cs = .ok found) (hsize : found.size = cs.length) :
    ∀ c ∈ cs, c ∈ numeralAlphabet := by
  obtain ⟨text, behind, rfl, htext, hmem⟩ := numeral_split h
  rw [hsize, List.length_append] at htext
  obtain rfl : behind = [] := List.length_eq_zero_iff.mp (by omega)
  rwa [List.append_nil]

end

structure Literal where
  text : List Char
  value : Value
  found : FoundNumeral
  starts : startsNumeral text = true
  reads : numeral text = .ok found
  complete : found.size = text.length
  means : Term.atomNumeral? found.numeral = some (.literal value)

end Machining.Expression
