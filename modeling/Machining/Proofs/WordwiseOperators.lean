import Mathlib.Data.List.SplitBy
import Machining.Proofs.Capitals
import Machining.Proofs.OperatorWords
import Machining.Proofs.WordNumbers

namespace Machining.Expression
open Machining.Text Machining.Token

variable {c : Char} {cs rest w t a b : List Char} {before : Option Char} {op op' : Operator}
    {ops : List Operator}
  {f g : List Char → List Char}

/-- The maximal runs of word characters, and the characters between them one by one. -/
def wordRuns (cs : List Char) : List (List Char) :=
  cs.splitBy fun c d => isWordChar c && isWordChar d

/-- Induction along the characters that belong to no word. -/
theorem words_induction {P : List Char → Prop} (nil : P []) (word : ∀ w, IsWord w → P w)
    (join : ∀ cs c ds, isWordChar c = false → P cs → P ds → P (cs ++ c :: ds))
    (cs : List Char) : P cs := by
  induction hn : cs.length using Nat.strong_induction_on generalizing cs with
  | _ n ih =>
    have hcut : cs.takeWhile isWordChar ++ cs.dropWhile isWordChar = cs :=
      List.takeWhile_append_dropWhile
    have hfirst : P (cs.takeWhile isWordChar) := by
      by_cases hnil : cs.takeWhile isWordChar = []
      · rw [hnil]
        exact nil
      · exact word _ ⟨hnil, fun c hc => List.mem_takeWhile_imp hc⟩
    cases hrest : cs.dropWhile isWordChar with
    | nil =>
      rw [hrest, List.append_nil] at hcut
      rwa [hcut] at hfirst
    | cons c rest =>
      have hc := List.head_dropWhile_not isWordChar (l := cs) (by simp [hrest])
      have hlength := congrArg List.length hcut
      rw [hrest, List.length_append, List.length_cons] at hlength
      rw [← hcut, hrest]
      exact join _ c rest (by simpa [hrest] using hc) hfirst (ih rest.length (by omega) rest rfl)

theorem wordRuns_word (h : IsWord w) : wordRuns w = [w] := by
  refine List.splitBy_of_isChain h.1 (List.Pairwise.isChain ?_)
  exact List.pairwise_of_forall_mem_list fun c hc d hd => by simp [h.2 c hc, h.2 d hd]

theorem wordRuns_append (hc : isWordChar c = false) (w cs : List Char) :
    wordRuns (w ++ c :: cs) = wordRuns w ++ [c] :: wordRuns cs := by
  have hmark : wordRuns (c :: cs) = [c] :: wordRuns cs := by
    have hsingle : wordRuns [c] = [[c]] := rfl
    rw [← List.singleton_append, wordRuns, List.splitBy_append (by simp [hc])]
    rw [← wordRuns, hsingle, List.singleton_append, wordRuns]
  rw [← hmark, wordRuns, List.splitBy_append (by simp [hc])]
  rfl

theorem flatMap_wordRuns (h : ∀ w ∈ wordRuns cs, f w = w) : (wordRuns cs).flatMap f = cs := by
  rw [List.flatMap_congr h, List.flatMap_id']
  exact List.flatten_splitBy _ cs

theorem mapWords_append (hc : isWordChar c = false) (w cs : List Char) :
    mapWords f (w ++ c :: cs) = mapWords f w ++ c :: mapWords f cs :=
  mapWordsFrom_append f [] hc

theorem mapWords_word (h : IsWord w) : mapWords f w = f w := by
  rw [mapWords, mapWordsFrom_word f [] h.2 (.inr h.1)]
  rfl

/-- What is applied to words is applied to runs, if it leaves single characters that belong to no
word. -/
theorem mapWords_eq_flatMap (hmark : ∀ c, isWordChar c = false → f [c] = [c]) (cs : List Char) :
    mapWords f cs = (wordRuns cs).flatMap f := by
  induction cs using words_induction with
  | nil => rfl
  | word w hw => rw [mapWords_word hw, wordRuns_word hw, List.flatMap_singleton]
  | join cs c ds hc ih ih' =>
    rw [mapWords_append hc, wordRuns_append hc, List.flatMap_append, List.flatMap_cons,
      hmark c hc, ih, ih']
    rfl

theorem mapWords_congr (h : ∀ w, IsWord w → f w = g w) (cs : List Char) :
    mapWords f cs = mapWords g cs := by
  induction cs using words_induction with
  | nil => rfl
  | word w hw => rw [mapWords_word hw, mapWords_word hw, h w hw]
  | join cs c ds hc ih ih' => rw [mapWords_append hc, mapWords_append hc, ih, ih']

/-- What has come in place of a word stays apart from the words around it. -/
theorem mapWords_mapWords (f g : List Char → List Char) (cs : List Char) :
    mapWords f (mapWords g cs) = mapWords (fun w => mapWords f (g w)) cs := by
  induction cs using words_induction with
  | nil => rfl
  | word w hw => rw [mapWords_word hw, mapWords_word hw]
  | join cs c ds hc ih ih' =>
    rw [mapWords_append hc, mapWords_append hc, mapWords_append hc, ih, ih']

namespace Operator

def Names (op : Operator) (w : List Char) : Prop := w.flatMap upperForm = op.word.toList

instance (op : Operator) (w : List Char) : Decidable (op.Names w) :=
  inferInstanceAs (Decidable (_ = _))

/-- The symbol of the operator that a text names, among some operators; the text itself if it names
none of them. -/
def rendered (ops : List Operator) (w : List Char) : List Char :=
  ((ops.find? fun op => op.Names w).map fun op => op.symbol.toList).getD w

theorem mem_all (op : Operator) : op ∈ all := by cases op <;> decide

theorem words_spelled : ∀ op ∈ all, SpelledOut op.word.toList ∧ 'S' ∉ op.word.toList := by
  decide +kernel

theorem toUpper_eq_iff {d : Char} (hd : d.toNat < 0x80) (hS : d ≠ 'S') :
    tagUpper c = d ↔ c.toUpper = d := by
  unfold tagUpper
  split
  · rename_i hlong
    refine iff_of_false (Ne.symm hS) ?_
    rw [toUpper_high (by omega)]
    rintro rfl
    omega
  · rfl

/-- No operator is spelled with a letter that has a second small form. -/
theorem names_iff : op.Names w ↔ w.map Char.toUpper = op.word.toList := by
  obtain ⟨hspelled, hS⟩ := words_spelled op op.mem_all
  rw [Names, capitals_eq_iff hspelled]
  obtain ⟨hascii, -⟩ := hspelled
  generalize op.word.toList = u at hascii hS
  induction w generalizing u with
  | nil => rfl
  | cons c w ih =>
    cases u with
    | nil => simp
    | cons d u =>
      obtain ⟨hd, hu⟩ := List.forall_mem_cons.mp hascii
      rw [List.mem_cons, not_or] at hS
      rw [List.map_cons, List.map_cons, List.cons.injEq, List.cons.injEq,
        toUpper_eq_iff hd.1 (Ne.symm hS.1), ih u hu hS.2]

theorem Names.isWord (h : op.Names w) : IsWord w := by
  have hmap := names_iff.mp h
  refine ⟨?_, fun c hc => (letter_spec (isAlpha_of_word hmap c hc)).1⟩
  rintro rfl
  cases op <;> cases hmap

theorem Names.length (h : op.Names w) : w.length = op.word.length := by
  rw [← String.length_toList, ← names_iff.mp h, List.length_map]

theorem Names.unique (h : op.Names w) (h' : op'.Names w) : op = op' := by
  have hinjective : ∀ a ∈ all, ∀ b ∈ all, a.word.toList = b.word.toList → a = b := by decide +kernel
  exact hinjective op op.mem_all op' op'.mem_all (h.symm.trans h')

theorem not_names_mark (hc : isWordChar c = false) : ¬ op.Names [c] := by
  intro h
  rw [h.isWord.2 c List.mem_cons_self] at hc
  cases hc

theorem rendered_of_names (hop : op ∈ ops) (h : op.Names w) :
    rendered ops w = op.symbol.toList := by
  have hsome : (ops.find? fun op => op.Names w).isSome := by
    rw [List.find?_isSome]
    exact ⟨op, hop, by simpa using h⟩
  obtain ⟨found, hfound⟩ := Option.isSome_iff_exists.mp hsome
  have hnames : found.Names w := by simpa using List.find?_some hfound
  rw [rendered, hfound, hnames.unique h]
  rfl

theorem rendered_of_not_names (h : ∀ op ∈ ops, ¬ op.Names w) : rendered ops w = w := by
  have hnone : (ops.find? fun op => op.Names w) = none := by simpa using h
  rw [rendered, hnone]
  rfl

theorem rendered_mark (hc : isWordChar c = false) : rendered ops [c] = [c] :=
  rendered_of_not_names fun _ _ => not_names_mark hc

theorem rendered_perm {ops' : List Operator} (h : ops.Perm ops') (w : List Char) :
    rendered ops w = rendered ops' w := by
  by_cases hsome : ∃ op ∈ ops, op.Names w
  · obtain ⟨op, hop, hnames⟩ := hsome
    rw [rendered_of_names hop hnames, rendered_of_names (h.mem_iff.mp hop) hnames]
  · push Not at hsome
    rw [rendered_of_not_names hsome,
      rendered_of_not_names fun op hop => hsome op (h.mem_iff.mpr hop)]

/-- Whatever names an operator in a symbol, names the operator of that symbol. -/
theorem symbols_apart : ∀ op ∈ all, ∀ w ∈ wordRuns op.symbol.toList, ∀ op' ∈ all, op'.Names w →
    op' = op := by
  decide +kernel

theorem rendered_symbol (hop : op ∉ ops) :
    mapWords (rendered ops) op.symbol.toList = op.symbol.toList := by
  rw [mapWords_eq_flatMap fun c => rendered_mark]
  refine flatMap_wordRuns fun w hw => rendered_of_not_names fun op' hop' hnames => ?_
  rw [symbols_apart op op.mem_all w hw op' op'.mem_all hnames] at hop'
  exact hop hop'

/-- Different operators, one after the other, are replaced as if at once. -/
theorem foldl_substitute (h : ops.Nodup) (cs : List Char) :
    ops.foldl (fun cs op => op.substitute cs) cs = mapWords (rendered ops) cs := by
  induction ops generalizing cs with
  | nil =>
    rw [List.foldl_nil, mapWords_eq_flatMap fun c => rendered_mark]
    exact (flatMap_wordRuns fun _ _ => rfl).symm
  | cons op ops ih =>
    obtain ⟨hop, hops⟩ := List.nodup_cons.mp h
    rw [List.foldl_cons, ih hops, substitute, mapWords_mapWords]
    refine mapWords_congr (fun w hw => ?_) cs
    by_cases hnames : op.Names w
    · rw [replaceWord, if_pos (names_iff.mp hnames), rendered_symbol hop,
        rendered_of_names List.mem_cons_self hnames]
    · rw [replaceWord, if_neg (mt names_iff.mpr hnames), mapWords_word hw]
      simp [rendered, hnames]

def isEdge (before behind : Option Char) : Bool := before.any isWordChar != behind.any isWordChar

def standsAt (op : Operator) (before : Option Char) (cs : List Char) : Bool :=
  isEdge before cs.head? && decide (op.Names (cs.take op.word.length)) &&
    isEdge (cs.take op.word.length).getLast? (cs.drop op.word.length).head?

/-- Replace an operator from left to right; `before` is the character before, and `skip` characters
still belong to the name that was replaced last. -/
def sweepFrom (op : Operator) : Nat → Option Char → List Char → List Char
  | _, _, [] => []
  | skip + 1, _, c :: cs => sweepFrom op skip (some c) cs
  | 0, before, c :: cs =>
    if op.standsAt before (c :: cs) then op.symbol.toList ++
      sweepFrom op (op.word.length - 1) (some c) cs
    else c :: sweepFrom op 0 (some c) cs

def sweep (op : Operator) (cs : List Char) : List Char := op.sweepFrom 0 none cs

/-- The character before what follows a row. -/
theorem getLast?_cons_or (c : Char) (w : List Char) (before : Option Char) :
    (c :: w).getLast?.or before = w.getLast?.or (some c) := by
  rw [List.getLast?_cons]
  cases w.getLast? <;> rfl

theorem sweepFrom_skip (op : Operator) (before : Option Char) (w rest : List Char) :
    op.sweepFrom w.length before (w ++ rest) = op.sweepFrom 0 (w.getLast?.or before) rest := by
  induction w generalizing before with
  | nil => rfl
  | cons c w ih =>
    rw [List.length_cons, List.cons_append, sweepFrom, ih, getLast?_cons_or]

/-- Behind a word character no name begins. -/
theorem sweepFrom_inside (hbefore : before.any isWordChar = true)
    (hw : ∀ c ∈ w, isWordChar c = true) (rest : List Char) :
    op.sweepFrom 0 before (w ++ rest) = w ++ op.sweepFrom 0 (w.getLast?.or before) rest := by
  induction w generalizing before with
  | nil => rfl
  | cons c w ih =>
    obtain ⟨hc, hw⟩ := List.forall_mem_cons.mp hw
    have hno : op.standsAt before (c :: (w ++ rest)) = false := by
      simp [standsAt, isEdge, hbefore, hc]
    rw [List.cons_append, sweepFrom, hno, if_neg Bool.false_ne_true, ih (by simpa using hc) hw,
      getLast?_cons_or, List.cons_append]

theorem sweepFrom_mark (hc : isWordChar c = false) (before : Option Char) (cs : List Char) :
    op.sweepFrom 0 before (c :: cs) = c :: op.sweepFrom 0 (some c) cs := by
  have hno : op.standsAt before (c :: cs) = false := by
    rw [Bool.eq_false_iff]
    intro hstands
    simp only [standsAt, Bool.and_eq_true, decide_eq_true_eq] at hstands
    obtain ⟨⟨-, hnames⟩, -⟩ := hstands
    cases hn : op.word.length with
    | zero => exact hnames.isWord.1 (by rw [hn, List.take_zero])
    | succ n =>
      rw [hn, List.take_succ_cons] at hnames
      rw [hnames.isWord.2 c List.mem_cons_self] at hc
      cases hc
  rw [sweepFrom, hno, if_neg Bool.false_ne_true]

theorem standsAt_iff (hbefore : before.any isWordChar = false) (hw : IsWord w)
    (hrest : rest.head?.any isWordChar = false) :
    op.standsAt before (w ++ rest) = true ↔ op.Names w := by
  have hlast {w : List Char} (hw : IsWord w) : w.getLast?.any isWordChar = true := by
    rw [List.getLast?_eq_some_getLast hw.1]
    exact hw.2 _ (List.getLast_mem hw.1)
  have hhead : (w ++ rest).head?.any isWordChar = true := by
    obtain ⟨c, w, rfl⟩ := List.exists_cons_of_ne_nil hw.1
    exact hw.2 c List.mem_cons_self
  simp only [standsAt, isEdge, hbefore, hhead, Bool.and_eq_true, decide_eq_true_eq]
  constructor
  · rintro ⟨⟨-, hnames⟩, hedge⟩
    have hlength := hnames.length
    rw [hlast hnames.isWord] at hedge
    rcases Nat.lt_trichotomy op.word.length w.length with hless | hsame | hmore
    · -- the word goes on behind the name
      rw [List.drop_append_of_le_length hless.le,
        List.head?_append_of_ne_nil _ (by simpa using hless), List.head?_drop,
        List.getElem?_eq_getElem hless] at hedge
      simp [hw.2] at hedge
    · rwa [hsame, List.take_left] at hnames
    · -- the name goes on behind the word
      obtain ⟨k, hk⟩ := Nat.exists_eq_add_of_lt hmore
      cases rest with
      | nil =>
        rw [List.append_nil, List.take_of_length_le hmore.le] at hlength
        omega
      | cons d rest =>
        rw [hk, Nat.add_assoc, List.take_length_add_append, List.take_succ_cons] at hnames
        have hd := hnames.isWord.2 d (by simp)
        simp [hd] at hrest
  · intro hnames
    rw [← hnames.length, List.take_left, List.drop_left, hlast hw, hrest]
    exact ⟨⟨rfl, hnames⟩, rfl⟩

/-- Both take a text word by word: what is before and behind a text counts only if it is a word
character. -/
theorem sweepFrom_eq (op : Operator) (cs : List Char) :
    ∀ before rest, before.any isWordChar = false →
    rest.head?.any isWordChar = false →
    op.sweepFrom 0 before (cs ++ rest) = op.substitute cs ++
      op.sweepFrom 0 (cs.getLast?.or before) rest := by
  induction cs using words_induction with
  | nil =>
    intro before rest _ _
    rfl
  | word w hw =>
    intro before rest hbefore hrest
    have hstands : op.standsAt before (w ++ rest) = true ↔ op.Names w :=
      standsAt_iff hbefore hw hrest
    obtain ⟨c, w, rfl⟩ := List.exists_cons_of_ne_nil hw.1
    rw [substitute, mapWords_word hw, replaceWord, List.cons_append, sweepFrom, getLast?_cons_or]
    rw [List.cons_append] at hstands
    by_cases hnames : op.Names (c :: w)
    · rw [if_pos (hstands.mpr hnames), if_pos (names_iff.mp hnames), ← hnames.length,
        List.length_cons, Nat.add_sub_cancel, sweepFrom_skip]
    · rw [if_neg (mt hstands.mp hnames), if_neg (mt names_iff.mpr hnames),
        sweepFrom_inside (by simp [hw.2]) (fun d hd => hw.2 d (List.mem_cons_of_mem c hd))]
      rfl
  | join cs c ds hc ih ih' =>
    intro before rest hbefore hrest
    rw [List.append_assoc, List.cons_append, ih before (c :: (ds ++ rest)) hbefore (by simp [hc]),
      sweepFrom_mark hc, ih' (some c) rest (by simp [hc]) hrest, substitute, substitute, substitute,
      mapWords_append hc, List.getLast?_append,
      Option.or_assoc, getLast?_cons_or, List.append_assoc, List.cons_append]

theorem sweep_eq (op : Operator) (cs : List Char) : op.sweep cs = op.substitute cs := by
  have h := op.sweepFrom_eq cs none [] rfl rfl
  rwa [List.append_nil, sweepFrom, List.append_nil] at h

end Operator

theorem replaceOperators_eq_mapWords (cs : List Char) :
    replaceOperators cs = mapWords (Operator.rendered Operator.all) cs :=
  Operator.foldl_substitute (by decide) cs

theorem replaceOperators_eq_flatMap (cs : List Char) :
    replaceOperators cs = (wordRuns cs).flatMap (Operator.rendered Operator.all) := by
  rw [replaceOperators_eq_mapWords, mapWords_eq_flatMap fun c => Operator.rendered_mark]

theorem foldl_sweep (h : ops.Perm Operator.all) (cs : List Char) :
    ops.foldl (fun cs op => op.sweep cs) cs = replaceOperators cs := by
  have hnodup : ops.Nodup := h.nodup_iff.mpr (by decide)
  simp only [Operator.sweep_eq]
  rw [Operator.foldl_substitute hnodup, replaceOperators_eq_mapWords]
  exact mapWords_congr (fun w _ => Operator.rendered_perm h w) cs

/-- Every symbol begins with a character that belongs to no word, so it shows where an operator
was. -/
theorem not_names_of_flatMap {ws : List (List Char)}
    (h : ws.flatMap (Operator.rendered Operator.all) = ws.flatten) :
    ∀ w ∈ ws, ∀ op : Operator, ¬ op.Names w := by
  induction ws with
  | nil => simp
  | cons w ws ih =>
    rw [List.flatMap_cons, List.flatten_cons] at h
    have hnone : ∀ op : Operator, ¬ op.Names w := by
      intro op hnames
      have hsymbol : op.symbol.toList.head?.any (!isWordChar ·) = true := by cases op <;> decide
      rw [Operator.rendered_of_names op.mem_all hnames] at h
      obtain ⟨c, w, rfl⟩ := List.exists_cons_of_ne_nil hnames.isWord.1
      have hhead := congrArg List.head? h
      rw [List.cons_append, List.head?_cons, List.head?_append_of_ne_nil] at hhead
      · simp [hhead, hnames.isWord.2] at hsymbol
      · intro hnil
        simp [hnil] at hsymbol
    rw [Operator.rendered_of_not_names fun op _ => hnone op] at h
    exact List.forall_mem_cons.mpr ⟨hnone, ih (List.append_cancel_left h)⟩

theorem replaceOperators_eq_self_iff (cs : List Char) :
    replaceOperators cs = cs ↔ ∀ w ∈ wordRuns cs, ∀ op : Operator, ¬ op.Names w := by
  rw [replaceOperators_eq_flatMap]
  constructor
  · intro h
    refine not_names_of_flatMap (h.trans ?_)
    exact (List.flatten_splitBy _ cs).symm
  · intro h
    exact flatMap_wordRuns fun w hw => Operator.rendered_of_not_names fun op _ => h w hw op

def Parted (a b : List Char) : Prop :=
  a.getLast?.any isWordChar = false ∨ b.head?.any isWordChar = false

theorem replaceOperators_parted (h : Parted a b) :
    replaceOperators (a ++ b) = replaceOperators a ++ replaceOperators b := by
  have hempty : replaceOperators [] = [] := rfl
  rcases h with h | h
  · rcases List.eq_nil_or_concat' a with rfl | ⟨a, c, rfl⟩
    · rfl
    · have hc : isWordChar c = false := by simpa using h
      have happend : replaceOperators (a ++ [c]) = replaceOperators a ++ c :: replaceOperators [] :=
        replaceOperators_append hc
      rw [hempty] at happend
      rw [List.append_assoc, List.singleton_append, replaceOperators_append hc, happend,
        List.append_assoc, List.singleton_append]
  · cases b with
    | nil => rw [hempty, List.append_nil, List.append_nil]
    | cons c b =>
      have hc : isWordChar c = false := by simpa using h
      have hfirst : replaceOperators ([] ++ c :: b) = replaceOperators [] ++
          c :: replaceOperators b :=
        replaceOperators_append hc
      rw [List.nil_append, hempty, List.nil_append] at hfirst
      rw [replaceOperators_append hc, hfirst]

/-- Every operator has a letter that is in no numeral. -/
theorem not_names_of_lacking (h : ∀ c ∈ cs, wordLetters.contains c.toUpper = false) :
    ∀ w ∈ wordRuns cs, ∀ op : Operator, ¬ op.Names w := by
  intro w hw op hnames
  obtain ⟨d, hd, hletter⟩ := List.any_eq_true.mp (List.all_eq_true.mp operators_have op op.mem_all)
  rw [← Operator.names_iff.mp hnames] at hd
  obtain ⟨c, hc, rfl⟩ := List.mem_map.mp hd
  have hmem : c ∈ cs := by
    rw [← List.flatten_splitBy (fun c d => isWordChar c && isWordChar d) cs]
    exact List.mem_flatten.mpr ⟨w, hw, hc⟩
  rw [h c hmem] at hletter
  cases hletter

theorem digit_lacking (h : isDigit c = true) : wordLetters.contains c.toUpper = false := by
  by_cases hascii : c.toNat < 128
  · have := ascii_forall (p := fun c => !isDigit c || !wordLetters.contains c.toUpper)
      (by decide +kernel) hascii
    simpa [h] using this
  · have hsmall : ∀ d ∈ wordLetters, d.toNat < 128 := by simp [wordLetters]
    rw [toUpper_high (Nat.le_of_not_lt hascii), Bool.eq_false_iff]
    intro hmem
    exact hascii (hsmall c (by simpa using hmem))

/-- Identifiers, numbers and variables, none of whose words is the name of an operator. -/
inductive Bystander : List Char → Prop where
  | identifier {w : List Char} (word : IsWord w) (other : ∀ op : Operator, ¬ op.Names w) :
      Bystander w
  | number {cs : List Char} (numeral : Token.Numeral cs) : Bystander cs
  | literal (l : Literal) : Bystander l.text
  | numbered {ds : List Char} (present : ds ≠ []) (digits : ∀ c ∈ ds, isDigit c = true) :
      Bystander (Reference.number ds present digits).text
  | named {s : List Char} (present : s ≠ []) (closed : '>' ∉ s)
      (other : ∀ w ∈ wordRuns s, ∀ op : Operator, ¬ op.Names w) :
      Bystander (Reference.name s present closed).text

theorem Bystander.not_names (h : Bystander t) :
    ∀ w ∈ wordRuns t, ∀ op : Operator, ¬ op.Names w := by
  cases h with
  | identifier word other =>
    rw [wordRuns_word word]
    simpa using other
  | number numeral =>
    refine not_names_of_lacking fun c hc => ?_
    rcases numeral.inNumeral c hc with hdigit | hmark
    · exact digit_lacking hdigit
    · have hmarks : ∀ c ∈ ['+', '-', '.', 'e', 'E'], wordLetters.contains c.toUpper = false := by
        simp [wordLetters]
      exact hmarks c hmark
  | literal l =>
    refine not_names_of_lacking fun c hc => ?_
    have halphabet := mem_alphabet_of_numeral l.reads l.complete c hc
    simpa using List.all_eq_true.mp textAlphabet_lacks c (List.mem_append_left _ halphabet)
  | numbered present digits =>
    refine not_names_of_lacking (List.forall_mem_cons.mpr ⟨by decide, ?_⟩)
    exact fun c hc => digit_lacking (digits c hc)
  | @named s present closed other =>
    have hruns : wordRuns (Reference.name s present closed).text =
        ['#'] :: ['<'] :: (wordRuns s ++ [['>']]) := by
      have hhash := wordRuns_append (c := '#') (by decide) [] ('<' :: (s ++ ['>']))
      have hopening := wordRuns_append (c := '<') (by decide) [] (s ++ ['>'])
      have hclosing := wordRuns_append (c := '>') (by decide) s []
      rw [hclosing] at hopening
      exact hhash.trans (congrArg (List.cons ['#']) hopening)
    rw [hruns]
    intro w hw op
    simp only [List.mem_cons, List.mem_append, List.not_mem_nil, or_false] at hw
    rcases hw with rfl | rfl | hw | rfl
    · exact Operator.not_names_mark (by decide)
    · exact Operator.not_names_mark (by decide)
    · exact other w hw op
    · exact Operator.not_names_mark (by decide)

/-- Replacing operators is a map over the words of a text, whatever the order in which the operators
are taken. It changes a text exactly if one of its words is the name of an operator, and so no
identifier, number or variable that only contains such a name. -/
theorem replaceOperators_wordwise (cs : List Char) :
    replaceOperators cs = (wordRuns cs).flatMap (Operator.rendered Operator.all) ∧
    (∀ ops : List Operator, ops.Perm Operator.all →
      ops.foldl (fun cs op => op.sweep cs) cs = replaceOperators cs) ∧
    (replaceOperators cs = cs ↔ ∀ w ∈ wordRuns cs, ∀ op : Operator, ¬ op.Names w) ∧
    (Bystander cs → ∀ a b, Parted a (cs ++ b) → Parted cs b →
      replaceOperators (a ++ (cs ++ b)) = replaceOperators a ++ (cs ++ replaceOperators b)) := by
  refine ⟨replaceOperators_eq_flatMap cs, fun ops h => foldl_sweep h cs,
    replaceOperators_eq_self_iff cs, ?_⟩
  intro h a b hfront hback
  rw [replaceOperators_parted hfront, replaceOperators_parted hback,
    (replaceOperators_eq_self_iff cs).mpr h.not_names]

/-- An operator between two names that contain one, replaced from the last operator to the first. -/
theorem replaceOperators_wordwise_band :
    Bystander "band".toList ∧ Bystander "#<xor_1>".toList ∧
    Operator.all.reverse.foldl (fun cs op => op.sweep cs) "band And #<xor_1>".toList =
      "band  and  #<xor_1>".toList ∧
    replaceOperators ([] ++ ("band".toList ++ " And #<xor_1>".toList)) =
      replaceOperators [] ++ ("band".toList ++ replaceOperators " And #<xor_1>".toList) := by
  have hnames : ∀ w ∈ ["band".toList, "xor_1".toList], ∀ op ∈ Operator.all, ¬ op.Names w := by
    decide +kernel
  have hband : Bystander "band".toList :=
    .identifier ⟨by decide, List.all_eq_true.mp (by decide +kernel)⟩ fun op =>
      hnames _ (by simp) op op.mem_all
  have hname : Bystander "#<xor_1>".toList := by
    have hruns : wordRuns "xor_1".toList = ["xor_1".toList] := by decide +kernel
    refine .named (s := "xor_1".toList) (by decide) (by decide) fun w hw op => ?_
    rw [hruns] at hw
    exact hnames w (List.mem_cons_of_mem _ hw) op op.mem_all
  refine ⟨hband, hname, ?_,
    (replaceOperators_wordwise _).2.2.2 hband _ _ (.inl rfl) (.inr (by decide))⟩
  rw [(replaceOperators_wordwise _).2.1 _ (List.reverse_perm _)]
  decide +kernel

end Machining.Expression
