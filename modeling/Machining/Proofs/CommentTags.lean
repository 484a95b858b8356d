import Mathlib.Data.List.Basic
import Machining.Proofs.Capitals
import Machining.Proofs.WordNumbers

namespace Machining.Token
open Text

variable {line width pos skip : Nat} {c : Char}
    {cs pre body rest gap word tail : List Char} {t : Token}

theorem parenthesis_not_mem_value (h : Numeral cs ∨ Referral cs) : '(' ∉ cs := by
  rcases h with h | h
  · intro hmem
    have hparen := h.inNumeral _ hmem
    unfold InNumeral at hparen
    exact absurd hparen (by decide)
  · cases h with
    | @marked cs operands =>
      have hword : ∀ w : List Char, IsWord w → '(' ∉ w :=
        fun w hw hmem => absurd (hw.2 _ hmem) (by decide)
      have hoperands : '(' ∉ cs := by
        induction operands with
        | single word => exact hword _ word
        | @joined w cs o word operator more ih =>
          have hop : '(' ≠ o := by
            rintro rfl
            exact absurd operator (by decide)
          simp [hword w word, hop, ih]
      simp [hoperands]

/-- What a step may take: a comment, a token, or some characters without a parenthesis. -/
theorem step_takes (line width pos : Nat) (c : Char) (cs : List Char) :
    (∃ t : Token, .token t ∈ (step line width pos c cs).items ∧ t.start = pos ∧ t.IsComment) ∨
    ∃ n, (step line width pos c cs).more = some n ∧
      ((∃ t : Token, .token t ∈ (step line width pos c cs).items ∧ t.start = pos ∧
        t.stop = pos + n + 1) ∨
        ∃ value, value <+: cs ∧ value.length = n ∧ '(' ∉ value) := by
  have hnothing : ∃ value, value <+: cs ∧ value.length = 0 ∧ '(' ∉ value :=
    ⟨[], List.nil_prefix, rfl, by simp⟩
  unfold step
  split_ifs with hblank hparen hsemicolon hbracket
  · exact .inr ⟨0, rfl, .inr hnothing⟩
  · left
    simp only [comment]
    split
    · exact ⟨_, List.mem_cons_of_mem _ List.mem_cons_self, rfl, _, rfl⟩
    · exact ⟨_, List.mem_cons_self, rfl, _, rfl⟩
  · exact .inl ⟨_, List.mem_cons_self, rfl, _, rfl⟩
  · right
    simp only [bracketed]
    split
    · exact ⟨0, rfl, .inr hnothing⟩
    · exact ⟨_, rfl, .inl ⟨_, List.mem_cons_self, rfl, by push_cast; ring⟩⟩
  · right
    split
    · rename_i letter hletter
      simp only [Token.word]
      split
      · exact ⟨0, rfl, .inr hnothing⟩
      · rename_i hsome
        have hvalue := wordValue_of_ne_nil (by simpa using hsome)
        have htakes : ∃ value, value <+: cs ∧ value.length = (wordValue cs).length ∧ '(' ∉ value :=
          ⟨wordValue cs, (solid_wordValue cs).stretch, rfl, parenthesis_not_mem_value hvalue⟩
        split
        · exact ⟨_, rfl, .inr htakes⟩
        · exact ⟨_, rfl, .inr htakes⟩
    · exact ⟨0, rfl, .inr hnothing⟩

theorem scanFrom_some {n : Nat} (h : (step line width pos c cs).more = some n) :
    scanFrom line width pos 0 (c :: cs) = (step line width pos c cs).items ++
      scanFrom line width (pos + 1) n cs := by
  conv_lhs => unfold scanFrom
  simp only [h]

theorem scanFrom_none (h : (step line width pos c cs).more = none) :
    scanFrom line width pos 0 (c :: cs) = (step line width pos c cs).items := by
  unfold scanFrom
  simp only [h, List.append_nil]

theorem comment_more (line width pos : Nat) (cs : List Char) :
    (comment line width pos cs).more = none := by
  unfold comment
  split <;> rfl

/-- Tokens that end before a column, or begin there or behind it; none before it is a comment. -/
def Apart (col : Nat) (ts : List Token) : Prop :=
  ∀ t ∈ ts, t.start < col → t.stop ≤ col ∧ ¬ t.IsComment

instance (t : Token) : Decidable t.IsComment :=
  match h : t.kind with
  | .comment kind => isTrue ⟨kind, h⟩
  | .word _ | .number | .reference | .expression | .newline | .endOfText =>
    isFalse fun ⟨_, hkind⟩ => by simp [h] at hkind

instance (col : Nat) (ts : List Token) : Decidable (Apart col ts) :=
  inferInstanceAs (Decidable (∀ t ∈ ts, _))

/-- A parenthesis that no token before it has taken opens a comment. -/
theorem scanFrom_opening (hskip : skip ≤ pre.length)
    (hopen : Apart (pos + pre.length)
      ((scanFrom line width pos skip (pre ++ '(' :: rest)).filterMap Item.token?)) :
    ∃ before, scanFrom line width pos skip (pre ++ '(' :: rest) =
      before ++ (comment line width (pos + pre.length) rest).items := by
  induction pre generalizing pos skip with
  | nil =>
    obtain rfl : skip = 0 := by simpa using hskip
    exact ⟨[], scanFrom_none (comment_more line width pos rest)⟩
  | cons c pre ih =>
    rw [List.cons_append] at hopen ⊢
    rw [List.length_cons, ← Nat.add_assoc, Nat.add_right_comm] at hopen ⊢
    cases skip with
    | succ skip => exact ih (by simpa using hskip) hopen
    | zero =>
      rcases step_takes line width pos c (pre ++ '(' :: rest) with ⟨t, ht, hstart, hcomment⟩ |
        ⟨n, hmore, htakes⟩
      · have hmem : .token t ∈ scanFrom line width pos 0 (c :: (pre ++ '(' :: rest)) := by
          unfold scanFrom
          exact List.mem_append_left _ ht
        exact absurd hcomment (hopen t (mem_tokens.mpr hmem) (by omega)).2
      · rw [scanFrom_some hmore] at hopen ⊢
        have hn : n ≤ pre.length := by
          rcases htakes with ⟨t, ht, hstart, hstop⟩ | ⟨value, hvalue, rfl, hparen⟩
          · have := (hopen t (mem_tokens.mpr (List.mem_append_left _ ht)) (by omega)).1
            omega
          · by_contra hlong
            apply hparen
            have hwhole : (pre ++ ['(']) <+: pre ++ '(' :: rest := ⟨rest, by simp⟩
            have hfits : (pre ++ ['(']) <+: value := by
              apply List.prefix_of_prefix_length_le hwhole hvalue
              simp only [List.length_append, List.length_singleton]
              omega
            exact hfits.subset (by simp)
        obtain ⟨before, hbefore⟩ := ih hn fun t ht => hopen t (by
          rw [List.filterMap_append]
          exact List.mem_append_right _ ht)
        exact ⟨_ ++ before, by rw [hbefore, List.append_assoc]⟩

theorem comment_closed (hbody : ')' ∉ body) (rest : List Char) :
    (comment line width pos (body ++ ')' :: rest)).items =
      [tokenAt line (.comment (classify body).1) (classify body).2 pos
        (pos + body.length + 2)] := by
  have hinner : ∀ c ∈ body, decide (c ≠ ')') = true :=
    fun c hc => by simpa using ne_of_mem_of_not_mem hc hbody
  unfold comment
  rw [List.takeWhile_append_of_pos hinner, List.dropWhile_append_of_pos hinner]
  simp

/-- Behind a parenthesis that opens a comment and is closed, nothing of the line is left. -/
theorem row_closed (n : Nat) (hbody : ')' ∉ body)
    (hopen : Apart pre.length (row n (pre ++ '(' :: (body ++ ')' :: rest)))) :
    (row n (pre ++ '(' :: (body ++ ')' :: rest))).getLast? =
      some ⟨.comment (classify body).1, String.ofList (classify body).2, n, pre.length,
        pre.length + body.length + 2⟩ := by
  have hparen : isBlank '(' = false := by decide
  have hclose : isBlank ')' = false := by decide
  have htrim : trim (pre ++ '(' :: (body ++ ')' :: rest)) =
      trimStart pre ++ '(' :: (body ++ ')' :: trimEnd rest) := by
    rw [trim, trimStart_append hparen, ← List.cons_append, ← List.append_assoc,
      trimEnd_append hclose]
    simp
  have hlength : (trimStart pre).length ≤ pre.length := (List.dropWhile_suffix _).length_le
  have hcolumn : (pre ++ '(' :: (body ++ ')' :: rest)).length -
      (trimStart (pre ++ '(' :: (body ++ ')' :: rest))).length +
      (trimStart pre).length = pre.length := by
    rw [trimStart_append hparen, List.length_append, List.length_append]
    omega
  unfold row scanLine at hopen ⊢
  rw [htrim] at hopen ⊢
  generalize (pre ++ '(' :: (body ++ ')' :: rest)).length -
    (trimStart (pre ++ '(' :: (body ++ ')' :: rest))).length =
    col at hcolumn hopen ⊢
  obtain ⟨before, hbefore⟩ := scanFrom_opening (Nat.zero_le _) (by rwa [hcolumn])
  rw [hbefore, comment_closed hbody, hcolumn]
  simp [tokenAt, Item.token?]

def onLine (text : String) (k : Nat) : List Token := (scan text).1.filter (isOn (k + 1 : Nat))

theorem rowsFrom_filter {n k : Nat} {ls : List (List Char)} (h : ls[k]? = some cs) :
    (rowsFrom n ls).filter (isOn (n + k : Nat)) = row (n + k) cs := by
  induction ls generalizing n k with
  | nil => cases h
  | cons l ls ih =>
    have hend : ∀ line, isOn line (lineEnd n l) = false :=
      fun line => by simp [isOn, endsLine, lineEnd]
    rw [rowsFrom_cons, List.filter_append, List.filter_cons_of_neg (by simp [hend])]
    cases k with
    | zero =>
      obtain rfl : l = cs := by simpa using h
      rw [Nat.add_zero, row_filter, rowsFrom_filter_before (by omega), List.append_nil]
    | succ k =>
      rw [row_filter_other (by omega), List.nil_append, show n + (k + 1) = n + 1 + k by omega]
      exact ih (by simpa using h)

theorem onLine_eq {text : String} {k : Nat} (h : (lines text)[k]? = some cs) :
    onLine text k = row (k + 1) cs := by
  have hmark : isOn (k + 1 : Nat) (endMark text) = false := by simp [isOn, endsLine, endMark]
  rw [onLine, scan_tokens, List.filter_append, List.filter_cons_of_neg (Bool.eq_false_iff.mp hmark),
    List.filter_nil, List.append_nil, Nat.add_comm k 1, rowsFrom_filter h]

def Begins (tag : String) (body : List Char) : Prop := tag.toList <+: trim (body.flatMap upperForm)

instance (tag : String) (body : List Char) : Decidable (Begins tag body) :=
  inferInstanceAs (Decidable (_ <+: _))

/-- The text of a comment taken apart: blanks, a tag in either case, and what follows. -/
structure Tagged (tag : String) (body gap word tail : List Char) : Prop where
  whole : body = gap ++ (word ++ tail)
  blank : ∀ c ∈ gap, isBlank c = true
  spelled : word.flatMap upperForm = tag.toList

def behindComma (body : List Char) : List Char := (body.dropWhile (· ≠ ',')).drop 1

/-- The token of a comment carries the text behind its tag, or all of its text if it has none. -/
def Carries (t : Token) (body : List Char) : Prop :=
  (∀ tag ∈ tags, Begins tag.1 body →
    t.kind = .comment tag.2 ∧ t.value = String.ofList (trim (behindComma body))) ∧
  ((∀ tag ∈ tags, ¬ Begins tag.1 body) → t.kind = .comment .plain ∧ t.value = String.ofList body)

theorem tags_spelled : ∀ tag ∈ tags, SpelledOut tag.1.toList ∧ EndsApart tag.1.toList := by
  decide +kernel

theorem tags_solid : ∀ tag ∈ tags, tag.1.toList ≠ [] ∧ tag.1.toList.any isBlank = false := by
  decide +kernel

/-- The comma of a tag is its last character. -/
theorem tags_comma : ∀ tag ∈ tags, tag.1.toList.dropWhile (· ≠ ',') = [','] := by decide +kernel

theorem tags_apart : ∀ a ∈ tags, ∀ b ∈ tags, a.1.toList <+: b.1.toList → a = b := by decide +kernel

theorem begins_iff {tag : String × CommentKind} (htag : tag ∈ tags) :
    Begins tag.1 body ↔ tag.1.toList <+: (trim body).map tagUpper := by
  obtain ⟨hspelled, hend⟩ := tags_spelled tag htag
  rw [Begins, trim_capitals, prefix_capitals_iff hspelled hend]

theorem begins_unique {a b : String × CommentKind} (ha : a ∈ tags) (hb : b ∈ tags)
    (hbegins : Begins a.1 body) (hbegins' : Begins b.1 body) : a = b := by
  rcases List.prefix_or_prefix_of_prefix hbegins hbegins' with h | h
  · exact tags_apart a ha b hb h
  · exact (tags_apart b hb a ha h).symm

theorem classify_tagged {tag : String × CommentKind} (htag : tag ∈ tags)
    (hbegins : Begins tag.1 body) : classify body = (tag.2, trim (body.drop tag.1.length)) := by
  have hfind : tags.find? (fun tag => tag.1.toList.isPrefixOf ((trim body).map tagUpper)) =
      some tag := by
    have hsome : (tags.find? fun tag => tag.1.toList.isPrefixOf
        ((trim body).map tagUpper)).isSome := by
      rw [List.find?_isSome]
      exact ⟨tag, htag, List.isPrefixOf_iff_prefix.mpr ((begins_iff htag).mp hbegins)⟩
    obtain ⟨found, hfound⟩ := Option.isSome_iff_exists.mp hsome
    have hmem := List.mem_of_find?_eq_some hfound
    have hfits := List.find?_some hfound
    rw [List.isPrefixOf_iff_prefix] at hfits
    rw [hfound, begins_unique hmem htag ((begins_iff hmem).mpr hfits) hbegins]
  simp [classify, hfind]

theorem classify_untagged (h : ∀ tag ∈ tags, ¬ Begins tag.1 body) :
    classify body = (.plain, body) := by
  have hfind : tags.find? (fun tag => tag.1.toList.isPrefixOf ((trim body).map tagUpper)) =
      none := by
    rw [List.find?_eq_none]
    intro tag htag hfits
    exact h tag htag ((begins_iff htag).mpr (List.isPrefixOf_iff_prefix.mp hfits))
  simp [classify, hfind]

/-- Blanks around a word and a text behind it. -/
theorem trim_word (hgap : ∀ c ∈ gap, isBlank c = true) (hword : word ≠ [])
    (hsolid : ∀ c ∈ word, isBlank c = false) (tail : List Char) :
    trim (gap ++ (word ++ tail)) = word ++ trimEnd tail := by
  have hlast := hsolid _ (List.getLast_mem hword)
  have hfirst := hsolid _ (List.head_mem hword)
  have hstart : trimStart (gap ++ (word ++ tail)) = word ++ tail := by
    rw [← List.cons_head_tail hword, List.cons_append, trimStart_append hfirst,
      trimStart_blank hgap, List.nil_append]
  have hend : ∀ cs, word ++ cs = word.dropLast ++ word.getLast hword :: cs := fun cs => by
    rw [← List.singleton_append, ← List.append_assoc, List.dropLast_append_getLast]
  rw [trim, hstart, hend, trimEnd_append hlast, ← hend]

theorem countP_trim (cs : List Char) : (trim cs).countP (!isBlank ·) = cs.countP (!isBlank ·) := by
  obtain ⟨pre, post, hsplit, -, hpre, hpost⟩ := trim_split cs
  have hpre' : pre.countP (!isBlank ·) = 0 := by simpa using hpre
  have hpost' : post.countP (!isBlank ·) = 0 := by simpa using hpost
  conv_rhs => rw [hsplit]
  rw [List.countP_append, List.countP_append, hpre', hpost', Nat.zero_add, Nat.add_zero]

theorem countP_trimEnd (cs : List Char) :
    (trimEnd cs).countP (!isBlank ·) = cs.countP (!isBlank ·) := by
  obtain ⟨post, hsplit, hpost⟩ := trimEnd_split cs
  have hpost' : post.countP (!isBlank ·) = 0 := by simpa using hpost
  conv_rhs => rw [hsplit]
  rw [List.countP_append, hpost', Nat.add_zero]

theorem tagUpper_comma (c : Char) : tagUpper c = ',' ↔ c = ',' := by
  constructor
  · intro h
    unfold tagUpper at h
    split at h
    · exact absurd h (by decide)
    · rcases toUpper_code c with hsame | ⟨hlow, -, hcode⟩
      · rw [← hsame, h]
      · rw [h, show (',' : Char).toNat = 0x2C from rfl] at hcode
        omega
  · rintro rfl
    rfl

namespace Tagged
variable {tag : String × CommentKind}

theorem map_word (h : Tagged tag.1 body gap word tail) (htag : tag ∈ tags) :
    word.map tagUpper = tag.1.toList :=
  (capitals_eq_iff (tags_spelled tag htag).1).mp h.spelled

theorem length_word (h : Tagged tag.1 body gap word tail) (htag : tag ∈ tags) :
    word.length = tag.1.length := by
  rw [← String.length_toList, ← h.map_word htag, List.length_map]

theorem word_ne_nil (h : Tagged tag.1 body gap word tail) (htag : tag ∈ tags) : word ≠ [] := by
  rintro rfl
  exact (tags_solid tag htag).1 h.spelled.symm

theorem word_solid (h : Tagged tag.1 body gap word tail) (htag : tag ∈ tags) :
    ∀ c ∈ word, isBlank c = false := by
  intro c hc
  rw [Bool.eq_false_iff]
  intro hblank
  have hmem : c ∈ word.flatMap upperForm :=
    List.mem_flatMap.mpr ⟨c, hc, by simp [upperForm_blank hblank]⟩
  rw [h.spelled] at hmem
  exact List.any_eq_false.mp (tags_solid tag htag).2 c hmem hblank

theorem begins (h : Tagged tag.1 body gap word tail) (htag : tag ∈ tags) : Begins tag.1 body := by
  rw [begins_iff htag, h.whole, trim_word h.blank (h.word_ne_nil htag) (h.word_solid htag),
    List.map_append, h.map_word htag]
  exact List.prefix_append _ _

/-- A text that begins with a tag can be taken apart. -/
theorem exists_of_begins (htag : tag ∈ tags) (hbegins : Begins tag.1 body) :
    ∃ gap word tail, Tagged tag.1 body gap word tail := by
  obtain ⟨word, ⟨tail, htail⟩, hword⟩ := List.prefix_map_iff.mp ((begins_iff htag).mp hbegins)
  obtain ⟨gap, post, hsplit, -, hgap, -⟩ := trim_split body
  exact ⟨gap, word, tail ++ post, by rw [hsplit, ← htail]; simp, hgap,
    (capitals_eq_iff (tags_spelled tag htag).1).mpr hword.symm⟩

theorem behindComma_eq (h : Tagged tag.1 body gap word tail) (htag : tag ∈ tags) :
    behindComma body = tail := by
  have hgap : ∀ c ∈ gap, decide (c ≠ ',') = true := by
    intro c hc
    simp only [decide_eq_true_eq]
    rintro rfl
    exact absurd (h.blank _ hc) (by decide)
  have hword : word.dropWhile (· ≠ ',') = [','] := by
    have hmap := tags_comma tag htag
    rw [← h.map_word htag, List.dropWhile_map] at hmap
    have hsame : ((fun c => decide (c ≠ ',')) ∘ tagUpper) = fun c => decide (c ≠ ',') := by
      funext c
      simp [tagUpper_comma]
    rw [hsame] at hmap
    obtain ⟨c, hone, hcomma⟩ := List.map_eq_singleton_iff.mp hmap
    rw [hone, (tagUpper_comma c).mp hcomma]
  rw [behindComma, h.whole, List.dropWhile_append_of_pos hgap, List.dropWhile_append, hword]
  rfl

/-- With blanks in front, fewer characters of the tag are cut off than it has. -/
theorem left_ne_nil (h : Tagged tag.1 body gap word tail) (htag : tag ∈ tags) (hgap : gap ≠ []) :
    word.drop (word.length - gap.length) ≠ [] := by
  have hword := List.length_pos_iff.mpr (h.word_ne_nil htag)
  have hblanks := List.length_pos_iff.mpr hgap
  rw [← List.length_pos_iff, List.length_drop]
  omega

theorem left_solid (h : Tagged tag.1 body gap word tail) (htag : tag ∈ tags) (n : Nat) :
    ∀ c ∈ word.drop n, isBlank c = false :=
  fun c hc => h.word_solid htag c (List.mem_of_mem_drop hc)

/-- The characters cut off are as many as the tag has. What is left of the tag is in front of the
value. -/
theorem trim_drop (h : Tagged tag.1 body gap word tail) (htag : tag ∈ tags) :
    trim (body.drop tag.1.length) =
      if gap = [] then trim tail else word.drop (word.length - gap.length) ++ trimEnd tail := by
  rw [← h.length_word htag, h.whole]
  split_ifs with hgap
  · simp [hgap]
  · have hdrop : (gap ++ (word ++ tail)).drop word.length =
        gap.drop word.length ++ (word.drop (word.length - gap.length) ++ tail) := by
      rw [List.drop_append, List.drop_append_of_le_length (by omega)]
    rw [hdrop, trim_word (fun c hc => h.blank c (List.mem_of_mem_drop hc)) (h.left_ne_nil htag hgap)
      (h.left_solid htag _)]

/-- So the value is the text behind the tag only without blanks in front. -/
theorem trim_drop_eq_iff (h : Tagged tag.1 body gap word tail) (htag : tag ∈ tags) :
    trim (body.drop tag.1.length) = trim (behindComma body) ↔ body.head?.any isBlank = false := by
  rw [h.trim_drop htag, h.behindComma_eq htag, h.whole]
  cases gap with
  | nil =>
    obtain ⟨c, w, rfl⟩ := List.exists_cons_of_ne_nil (h.word_ne_nil htag)
    simp [h.word_solid htag]
  | cons c gap =>
    have hblank : isBlank c = true := h.blank c List.mem_cons_self
    have hleft : 0 < (word.drop (word.length - (c :: gap).length)).countP (!isBlank ·) := by
      obtain ⟨d, hd⟩ := List.exists_mem_of_ne_nil _ (h.left_ne_nil htag (by simp))
      exact List.countP_pos_iff.mpr ⟨d, hd, by simp [h.left_solid htag _ d hd]⟩
    simp only [reduceCtorEq, if_false, List.cons_append, List.head?_cons, Option.any_some,
      hblank, iff_false]
    intro heq
    have hcount := congrArg (List.countP (!isBlank ·)) heq
    rw [List.countP_append, countP_trimEnd, countP_trim] at hcount
    omega

end Tagged

/-- A parenthesis that no token before it takes, and that is closed on its line, opens the line's
last token, from it to the one that closes it. The token carries the text behind its tag exactly if
no blank is in front of the tag. A token of a comment with a tag has the tag's kind, and what blanks
have moved out of reach stays in its value. -/
theorem comment_carries_iff {text : String} {k : Nat}
    (hline : (lines text)[k]? = some (pre ++ '(' :: (body ++ ')' :: rest))) (hbody : ')' ∉ body)
    (hopen : Apart pre.length (onLine text k)) :
    ∃ t, (onLine text k).getLast? = some t ∧ t.start = pre.length ∧
      t.stop = pre.length + body.length + 2 ∧
      (Carries t body ↔ ∀ tag ∈ tags, Begins tag.1 body → body.head?.any isBlank = false) ∧
      ((∀ tag ∈ tags, ¬ Begins tag.1 body) → t.kind = .comment .plain ∧
        t.value = String.ofList body) ∧
      ∀ tag ∈ tags, Begins tag.1 body ↔
        ∃ gap word tail, Tagged tag.1 body gap word tail ∧ t.kind = .comment tag.2 ∧
        t.value = String.ofList
          (if gap = [] then trim tail
            else word.drop (word.length - gap.length) ++ trimEnd tail) := by
  rw [onLine_eq hline] at hopen ⊢
  refine ⟨_, row_closed (k + 1) hbody hopen, rfl, rfl, ?_, ?_, ?_⟩
  · by_cases hsome : ∃ tag ∈ tags, Begins tag.1 body
    · obtain ⟨tag, htag, hbegins⟩ := hsome
      obtain ⟨gap, word, tail, h⟩ := Tagged.exists_of_begins htag hbegins
      have hall : (∀ other ∈ tags, Begins other.1 body → body.head?.any isBlank = false) ↔
          body.head?.any isBlank = false :=
        ⟨fun hfree => hfree tag htag hbegins, fun hfree _ _ _ => hfree⟩
      rw [hall, ← h.trim_drop_eq_iff htag, classify_tagged htag hbegins]
      constructor
      · intro hcarries
        exact String.ofList_injective (hcarries.1 tag htag hbegins).2
      · intro hvalue
        refine ⟨fun other hother hbegins' => ?_, fun hnone => absurd hbegins (hnone tag htag)⟩
        rw [begins_unique hother htag hbegins' hbegins, ← hvalue]
        exact ⟨rfl, rfl⟩
    · push Not at hsome
      rw [classify_untagged hsome]
      refine iff_of_true ⟨fun tag htag hbegins => absurd hbegins (hsome tag htag),
        fun _ => ⟨rfl, rfl⟩⟩ ?_
      exact fun tag htag hbegins => absurd hbegins (hsome tag htag)
  · intro hnone
    rw [classify_untagged hnone]
    exact ⟨rfl, rfl⟩
  · intro tag htag
    constructor
    · intro hbegins
      obtain ⟨gap, word, tail, h⟩ := Tagged.exists_of_begins htag hbegins
      refine ⟨gap, word, tail, h, ?_⟩
      rw [classify_tagged htag hbegins, h.trim_drop htag]
      exact ⟨rfl, rfl⟩
    · rintro ⟨gap, word, tail, h, -⟩
      exact h.begins htag

/-- One blank before the tag, and the comma of the tag is in the value. -/
theorem comment_carries_iff_comma :
    (lines "G0 ( MSG,hello) X1")[0]? =
      some ("G0 ".toList ++ '(' :: (" MSG,hello".toList ++ ')' :: " X1".toList)) ∧
    Apart 3 (onLine "G0 ( MSG,hello) X1" 0) ∧ Begins "MSG," " MSG,hello".toList ∧
    (∃ t, (onLine "G0 ( MSG,hello) X1" 0).getLast? = some t ∧ t.value = ",hello" ∧
      ¬ Carries t " MSG,hello".toList) ∧
    ∃ t, (onLine "(mſg, hello )" 0).getLast? = some t ∧ t.value = "hello" ∧
      Carries t "mſg, hello ".toList := by
  have hbegins : Begins "MSG," " MSG,hello".toList := by decide +kernel
  have hline : (lines "G0 ( MSG,hello) X1")[0]? =
      some ("G0 ".toList ++ '(' :: (" MSG,hello".toList ++ ')' :: " X1".toList)) := by
    decide +kernel
  have hopen : Apart 3 (onLine "G0 ( MSG,hello) X1" 0) := by decide +kernel
  refine ⟨hline, hopen, hbegins, ?_, ?_⟩
  · obtain ⟨t, hlast, -, -, hcarries, -, -⟩ := comment_carries_iff hline (by decide) hopen
    have hvalue : (onLine "G0 ( MSG,hello) X1" 0).getLast?.map Token.value = some ",hello" := by
      decide +kernel
    rw [hlast] at hvalue
    refine ⟨t, hlast, Option.some.inj hvalue, ?_⟩
    rw [hcarries]
    intro hfree
    exact absurd (hfree ("MSG,", .message) (by decide) hbegins) (by decide)
  · have hline' :
        (lines "(mſg, hello )")[0]? = some ([] ++ '(' :: ("mſg, hello ".toList ++ ')' :: [])) := by
      decide +kernel
    obtain ⟨t, hlast, -, -, hcarries, -, -⟩ :=
      comment_carries_iff hline' (by decide) (by decide +kernel)
    have hvalue : (onLine "(mſg, hello )" 0).getLast?.map Token.value = some "hello" := by
      decide +kernel
    rw [hlast] at hvalue
    refine ⟨t, hlast, Option.some.inj hvalue, ?_⟩
    rw [hcarries]
    intro _ _ _
    decide +kernel

end Machining.Token
