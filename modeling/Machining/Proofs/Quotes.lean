import Machining.Json.Read
import Mathlib.Data.Char
import Mathlib.Data.List.Chain

namespace Machining.Json
open Machining.Text

variable {c d : Char} {cs s rest : List Char} {n : Nat}

theorem hexValue?_hexDigit : ∀ n < 16, hexValue? (hexDigit n) = some n := by decide

/-- Four digits write a unit. -/
theorem unit?_hexDigits (h : n < 65536) :
    unit? (hexDigit (n / 4096 % 16)) (hexDigit (n / 256 % 16)) (hexDigit (n / 16 % 16))
      (hexDigit (n % 16)) =
      some n := by
  unfold unit?
  rw [hexValue?_hexDigit _ (Nat.mod_lt _ (by decide)),
    hexValue?_hexDigit _ (Nat.mod_lt _ (by decide)), hexValue?_hexDigit _
      (Nat.mod_lt _ (by decide)), hexValue?_hexDigit _ (Nat.mod_lt _ (by decide))]
  simp only [Option.some.injEq]
  omega

def pushed (c : Char) (read : Option (List Char × List Char)) : Option (List Char × List Char) :=
  read.map fun r => (push c r.1, r.2)

theorem stringFrom_unitEscape (h : n < 65536) (cs : List Char) :
    stringFrom (unitEscape n ++ cs) = pushed (unitChar n) (stringFrom cs) := by
  simp only [unitEscape, List.cons_append, List.nil_append, stringFrom, unit?_hexDigits h]
  rfl

/-- Characters from the blank on stand for themselves, the quote and the backslash apart. -/
theorem stringFrom_plain (hquote : c ≠ '"') (hback : c ≠ '\\') (hprinted : 0x20 ≤ c.toNat)
    (cs : List Char) : stringFrom (c :: cs) = pushed c (stringFrom cs) := by
  rw [stringFrom, if_neg (by simp [hback, hprinted])]
  · rfl
  · exact hquote
  · exact fun _ _ _ _ _ h => absurd h hback
  · exact fun _ _ h => absurd h hback

def Meet (c d : Char) : Prop :=
  ∃ high low, loneUnit? c = some high ∧ loneUnit? d = some low ∧ isHigh high = true ∧
    isLow low = true

theorem push_meet {high low : Nat} (hc : loneUnit? c = some high) (hd : loneUnit? d = some low)
    (hhigh : isHigh high = true) (hlow : isLow low = true) (s : List Char) :
    push c (d :: s) = push (pairChar high low) s := by
  rw [push, hc, hd]
  simp [hhigh, hlow]

theorem push_apart (h : ∀ d ∈ s.head?, ¬ Meet c d) : push c s = c :: s := by
  cases s with
  | nil => rfl
  | cons d s =>
    have hapart := h d rfl
    unfold push
    split
    · rename_i high low hc hd
      split
      · rename_i hboth
        rw [Bool.and_eq_true] at hboth
        exact absurd ⟨high, low, hc, hd, hboth⟩ hapart
      · rfl
    · rfl

theorem not_meet_of_none (h : loneUnit? c = none) (d : Char) : ¬ Meet c d := by
  intro hmeet
  obtain ⟨high, low, hc, -⟩ := hmeet
  rw [h] at hc
  cases hc

/-- No two halves of one character stand side by side. -/
def Joined (s : List Char) : Prop := s.IsChain fun c d => ¬ Meet c d

theorem Joined.push (h : Joined s) (c : Char) : Joined (push c s) := by
  induction s generalizing c with
  | nil => exact .singleton c
  | cons d s ih =>
    by_cases hmeet : Meet c d
    · obtain ⟨high, low, hc, hd, hhigh, hlow⟩ := hmeet
      -- the character they make may itself be kept as a half, and goes before the rest in turn
      rw [push_meet hc hd hhigh hlow]
      exact ih h.tail _
    · rw [push_apart (by simpa using hmeet)]
      exact .cons_cons hmeet h

theorem Joined.foldr_push (h : Joined s) : s.foldr Json.push [] = s := by
  induction s with
  | nil => rfl
  | cons c s ih =>
    rw [List.foldr_cons, ih h.tail]
    apply push_apart
    intro d hd
    obtain ⟨rest, rfl⟩ := List.head?_eq_some_iff.mp hd
    exact (List.isChain_cons_cons.mp h).1

theorem joined_of_pushed {read : Option (List Char × List Char)}
    (h : pushed c read = some (s, rest)) (hread : ∀ t r, read = some (t, r) → Joined t) :
    Joined s := by
  obtain ⟨⟨t, r⟩, hr, heq⟩ := Option.map_eq_some_iff.mp h
  obtain ⟨rfl, -⟩ := Prod.mk.inj heq
  exact (hread t r hr).push c

/-- A string that was read has its halves joined. -/
theorem joined_of_stringFrom (h : stringFrom cs = some (s, rest)) : Joined s := by
  induction cs using stringFrom.induct generalizing s rest with
  | case1 => cases h
  | case2 cs =>
    obtain ⟨rfl, -⟩ := Prod.mk.inj (Option.some.inj h)
    exact .nil
  | case3 a b c d cs hunit => simp [stringFrom, hunit] at h
  | case4 a b c d cs n hunit ih =>
    simp only [stringFrom, hunit] at h
    exact joined_of_pushed h fun t r hr => ih hr
  | case5 c cs hshort hescape => simp [stringFrom, hescape] at h
  | case6 c cs hshort d hescape ih =>
    simp only [stringFrom, hescape] at h
    exact joined_of_pushed h fun t r hr => ih hr
  | case7 c cs hquote hunit hshort hbad =>
    rw [stringFrom, if_pos hbad] at h
    · cases h
    · exact hquote
    · exact hunit
    · exact hshort
  | case8 c cs hquote hunit hshort hgood ih =>
    rw [not_or, Nat.not_lt] at hgood
    rw [stringFrom_plain hquote hgood.2 hgood.1] at h
    exact joined_of_pushed h fun t r hr => ih hr

theorem loneUnit?_loneUnit (h : (isHigh n || isLow n) = true) :
    loneUnit? (loneUnit n) = some n := by
  have hrange : 0xD800 ≤ n ∧ n < 0xE000 := by
    simp only [isHigh, isLow, Bool.or_eq_true, Bool.and_eq_true, decide_eq_true_eq] at h
    omega
  have hcode : (loneUnit n).toNat = 0x100000 + n := by
    rw [loneUnit, Char.ofNat, dif_pos (.inr (by omega))]
    rfl
  rw [loneUnit?, hcode, if_pos (by omega), Nat.add_sub_cancel_left]

theorem eq_of_loneUnit? (h : loneUnit? c = some n) :
    c = loneUnit n ∧ (isHigh n || isLow n) = true := by
  unfold loneUnit? at h
  split at h
  · rename_i hrange
    have hn := Option.some.inj h
    constructor
    · rw [loneUnit, show 0x100000 + n = c.toNat by omega, Char.ofNat_toNat]
    · simp only [isHigh, isLow, Bool.or_eq_true, Bool.and_eq_true, decide_eq_true_eq]
      omega
  · cases h

/-- The two units of a character are read as this one. -/
theorem stringFrom_pairEscape (h : 0x10000 ≤ c.toNat) (cs : List Char) :
    stringFrom (pairEscape c ++ cs) = pushed c (stringFrom cs) := by
  have hmost : c.toNat < 0x110000 := by
    rcases c.valid with hlt | hlt
    · exact Nat.lt_trans hlt (by decide)
    · exact hlt.2
  obtain ⟨n, hn⟩ : ∃ n, c.toNat = 0x10000 + n := ⟨_, (Nat.add_sub_cancel' h).symm⟩
  have hhigh : isHigh (0xD800 + n / 1024) = true := by simp [isHigh]; omega
  have hlow : isLow (0xDC00 + n % 1024) = true := by simp [isLow]; omega
  have hlone : isHigh (0xDC00 + n % 1024) = false := by simp [isHigh]
  have hpair : pairChar (0xD800 + n / 1024) (0xDC00 + n % 1024) = c := by
    have hcode : 0x10000 + (0xD800 + n / 1024 - 0xD800) * 0x400 + (0xDC00 + n % 1024 - 0xDC00) =
        c.toNat := by omega
    rw [pairChar, hcode, Char.ofNat_toNat]
  have hfirst := loneUnit?_loneUnit (n := 0xD800 + n / 1024) (by simp [hhigh])
  have hsecond := loneUnit?_loneUnit (n := 0xDC00 + n % 1024) (by simp [hlow])
  simp only [pairEscape, hn, Nat.add_sub_cancel_left, List.append_assoc]
  rw [stringFrom_unitEscape (by omega), stringFrom_unitEscape (by omega)]
  cases stringFrom cs with
  | none => rfl
  | some read =>
    simp only [pushed, Option.map_some, unitChar, hhigh, hlow, Bool.or_true, Bool.true_or, if_true]
    have hapart : push (loneUnit (0xDC00 + n % 1024)) read.1 =
        loneUnit (0xDC00 + n % 1024) :: read.1 := by
      apply push_apart
      intro d _ hmeet
      obtain ⟨high, low, hc, -, hother, -⟩ := hmeet
      rw [hsecond, Option.some.injEq] at hc
      rw [← hc, hlone] at hother
      cases hother
    rw [hapart, push_meet hfirst hsecond hhigh hlow, hpair]

theorem unitChar_toNat (h : c.toNat < 0x10000) : unitChar c.toNat = c := by
  have hnone : (isHigh c.toNat || isLow c.toNat) = false := by
    simp only [isHigh, isLow, Bool.or_eq_false_iff, Bool.and_eq_false_iff, decide_eq_false_iff_not]
    rcases c.valid with hlt | hlt
    · have : c.toNat < 0xD800 := hlt
      omega
    · have : 0xDFFF < c.toNat := hlt.1
      omega
  rw [unitChar, hnone, if_neg Bool.false_ne_true, Char.ofNat_toNat]

/-- Every character is read back from its escape. -/
theorem stringFrom_escaped (c : Char) (cs : List Char) :
    stringFrom (escaped c ++ cs) = pushed c (stringFrom cs) := by
  unfold escaped
  split_ifs with hquote hback hline hreturn htab hstep hfeed hprinted hunit
  · subst hquote
    rfl
  · subst hback
    rfl
  · subst hline
    rfl
  · subst hreturn
    rfl
  · subst htab
    rfl
  · rw [← Char.ofNat_toNat c, hstep]
    rfl
  · rw [← Char.ofNat_toNat c, hfeed]
    rfl
  · exact stringFrom_plain hquote hback hprinted.1 cs
  · rw [stringFrom_unitEscape hunit, unitChar_toNat hunit]
  · split
    · rename_i n hlone
      obtain ⟨hc, hhalf⟩ := eq_of_loneUnit? hlone
      have hsmall : n < 65536 := by
        simp only [isHigh, isLow, Bool.or_eq_true, Bool.and_eq_true, decide_eq_true_eq] at hhalf
        omega
      rw [stringFrom_unitEscape hsmall, unitChar, hhalf, if_pos rfl, ← hc]
    · exact stringFrom_pairEscape (Nat.not_lt.mp hunit) cs

/-- A string with its halves joined is read back. -/
theorem stringFrom_quoted (h : Joined s) (rest : List Char) :
    stringFrom (s.flatMap escaped ++ '"' :: rest) = some (s, rest) := by
  have hread : stringFrom (s.flatMap escaped ++ '"' :: rest) = some (s.foldr push [], rest) := by
    clear h
    induction s with
    | nil => rfl
    | cons c s ih =>
      rw [List.flatMap_cons, List.append_assoc, stringFrom_escaped, ih]
      rfl
  rw [hread, h.foldr_push]

end Machining.Json
