/-
The two notations of a move, with a colon in front of the formula and without one. Behind the first colon a formula is
taken as it stands. Without a colon the line is cut into words, numbers are taken from the front, and the words
that are left are put together again with spaces. That does a formula no harm: a text that the lexer reads has no
colon (`Token.Segmented.not_mem_colon`), does not begin like a number (`Token.Segmented.not_isDigit`), and the
lexer reads it from its words as it reads the text itself (`Token.tokenize_words`). So both notations name the same
move, up to the spacing of the formula (`Move.read_notations`).
-/
import Deduction.CommandLine.Move
import Deduction.Proofs.Formula.Spelling
import Deduction.Proofs.Text.Integer
import Deduction.Proofs.Text.Words
import Deduction.Proofs.Token.Joining

namespace Deduction

open Text (AllBlank Solid Trimmed)

/-! ## Texts that the lexer reads -/

namespace Token

theorem Spells.not_mem_colon {cs : List Char} {kind : Kind} (h : Spells cs kind) : ':' ∉ cs := by
  rcases spells_iff.1 h with hsign | ⟨hword, -⟩
  · have htable : ∀ s ∈ spellings, ':' ∉ s.1 := by decide
    exact htable _ hsign
  · intro hc
    exact absurd (hword.continues ':' hc) (by decide)

theorem Segmented.not_mem_colon {cs : List Char} (h : Segmented cs) : ':' ∉ cs := by
  induction h with
  | nil => exact List.not_mem_nil
  | @blank c cs hc _ ih =>
    intro hmem
    rcases List.mem_cons.1 hmem with rfl | hmem
    · exact absurd hc (by decide)
    · exact ih hmem
  | token hs _ ih =>
    intro hmem
    rcases List.mem_append.1 hmem with hmem | hmem
    · exact hs.not_mem_colon hmem
    · exact ih hmem

/-- No spelling begins with a digit of any script, nor with a sign that looks like one. -/
theorem Spells.not_isDigit {c : Char} {cs : List Char} {kind : Kind} (h : Spells (c :: cs) kind) :
    Text.isDigit c = false := by
  rcases spells_iff.1 h with hsign | ⟨hword, -⟩
  · have htable : ∀ s ∈ spellings, s.1.head?.any Text.isDigit = false := by decide +kernel
    exact htable _ hsign
  · have hstart := (startsIdentifier_iff c).1 hword.1
    rw [Bool.eq_false_iff]
    intro hdigit
    have := Text.bounds_of_isDigit hdigit (by omega)
    omega

theorem Segmented.not_isDigit {c : Char} {cs : List Char} (h : Segmented (c :: cs))
    (hc : Text.isBlank c = false) : Text.isDigit c = false := by
  generalize hds : c :: cs = ds at h
  cases h with
  | nil => cases hds
  | blank hb _ =>
    obtain ⟨rfl, -⟩ := List.cons.inj hds
    simp [hc] at hb
  | @token text rest kind hs _ =>
    obtain ⟨d, tail, rfl, -⟩ := hs.head
    obtain ⟨rfl, -⟩ := List.cons.inj hds
    exact hs.not_isDigit

/-! ## Reading from the words -/

theorem Lexes.eq_nil {v : List (Kind × String)} (h : Lexes [] v) : v = [] := by
  obtain ⟨ts, hts, hv⟩ := h
  cases hts
  have hnil : [] = v := List.append_inj_left' hv rfl
  exact hnil.symm

/-- The words of a text, with a space between each two of them, are read as the text is: each blank divides the
tokens, and so does the space in its place. -/
theorem Lexes.words (cs : List Char) {v : List (Kind × String)} (h : Lexes cs v) :
    Lexes (Text.joinWith " " ((Text.splitWords cs).map String.ofList)).toList v := by
  rcases Text.solid_or_cut cs with hsolid | ⟨a, w, b, hcut, ha, hw⟩
  · rcases cs with _ | ⟨c, cs⟩
    · exact h
    · rw [Text.splitWords_solid (List.cons_ne_nil c cs) hsolid]
      simpa [Text.joinWith] using h
  · subst hcut
    obtain ⟨s, t, rfl, hs, ht⟩ := h.cut hw
    have htail := Lexes.words b ht
    rw [Text.splitWords_append_blank hw]
    rcases a with _ | ⟨c, a⟩
    · obtain rfl := hs.eq_nil
      exact htail
    · rw [Text.splitWords_solid (List.cons_ne_nil c a) ha]
      rcases hwords : Text.splitWords b with _ | ⟨u, us⟩
      · rw [hwords] at htail
        obtain rfl := Lexes.eq_nil htail
        simpa [Text.joinWith] using hs
      · rw [hwords] at htail
        rw [List.singleton_append, List.map_cons, Text.joinWith_cons " " _ (by simp), String.toList_append,
          String.toList_append, String.toList_ofList, List.append_assoc]
        exact hs.append (c := ' ') rfl (htail.blank rfl)
termination_by cs.length
decreasing_by
  subst hcut
  simp only [List.length_append, List.length_cons]
  omega

/-- The words of a text, with a space between each two of them, have its tokens, but for their places. -/
theorem tokenize_words {s : String} {ts : List Token} (h : tokenize s = .ok ts) :
    ∃ us, tokenize (Text.joinWith " " (Text.words s)) = .ok us ∧ us.map word = ts.map word := by
  obtain ⟨w, rfl, -⟩ := scan_shape s.toList h
  obtain ⟨us, hus, hword⟩ := Lexes.words s.toList ⟨_, h, List.map_append⟩
  exact ⟨us, hus, by rw [hword, List.map_append]; rfl⟩

end Token

open Token in
/-- Texts with the same tokens but for their places are read as the same formula, or refused for one cause at
tokens of one kind and text. -/
theorem Formula.read_of_same_words {s t : String} {ts us : List Token} (hs : tokenize s = .ok ts)
    (ht : tokenize t = .ok us) (h : us.map word = ts.map word) :
    ∃ a ∈ ts, ∃ b ∈ us, b.word = a.word ∧ Agree a b (read s) (read t) := by
  have hnodes : List.Forall₂ SameNode ts us := by
    have hwords : List.Forall₂ (fun t u => word t = word u) ts us := by
      rw [← List.forall₂_map_right_iff, ← List.forall₂_map_left_iff, h]
      exact List.forall₂_same.2 fun _ _ => rfl
    exact hwords.imp fun t u htu => ⟨congrArg Prod.fst htu, fun _ => congrArg Prod.snd htu⟩
  obtain ⟨hpos, -, hresult⟩ := Parser.readAll_agrees hnodes
  have ha := getElem?_stopsAt hs
  have hb := getElem?_stopsAt ht
  have hstops : stopsAt us = stopsAt ts := hpos.symm
  rw [hstops] at hb
  refine ⟨_, List.mem_of_getElem? ha, _, List.mem_of_getElem? hb, ?_, ?_⟩
  · have hsame := congrArg (fun ws : List (Kind × String) => ws[stopsAt ts]?) h
    simpa [ha, hb] using hsame
  · rw [read_of_tokenize hs, read_of_tokenize ht]
    exact hresult

/-! ## Moves -/

namespace Move

/-- How a line names a rule and steps: the name and the numbers, a space between each two of them. -/
def heading (rule : Rule) (ids : List Nat) : String :=
  Text.joinWith " " (rule.id.name :: ids.map toString)

theorem splitColon_of_not_mem : ∀ {cs : List Char}, ':' ∉ cs → splitColon cs = (cs, none)
  | [], _ => rfl
  | c :: cs, h => by
    rw [splitColon.eq_3 _ _ fun hc => h (by simp [hc]), splitColon_of_not_mem fun hc => h (List.mem_cons_of_mem c hc)]

/-- The first colon divides the line, whatever stands behind it. -/
theorem splitColon_append (tail : List Char) : ∀ {head : List Char}, ':' ∉ head →
    splitColon (head ++ ':' :: tail) = (head, some tail)
  | [], _ => rfl
  | c :: head, h => by
    rw [List.cons_append, splitColon.eq_3 _ _ fun hc => h (by simp [hc]),
      splitColon_append tail fun hc => h (List.mem_cons_of_mem c hc)]

theorem not_mem_colon_of_blank {gap : String} (h : AllBlank gap) : ':' ∉ gap.toList :=
  fun hc => absurd (h ':' hc) (by decide)

theorem plain_of_mem_toString {n : Nat} {c : Char} (h : c ∈ (toString n).toList) : c.isDigit = true := by
  rw [Nat.toString_eq_ofList_toDigits, String.toList_ofList] at h
  exact Nat.isDigit_of_mem_toDigits (by decide) (by decide) h

theorem solid_toString (n : Nat) : Solid (toString n) where
  nonempty h := by
    rw [Nat.toString_eq_ofList_toDigits] at h
    exact Nat.toDigits_ne_nil (String.ofList_eq_empty_iff.1 h)
  solid _ hc := Text.not_blank_of_plain (plain_of_mem_toString hc)

/-- The numbers in front of a word that is no number are read as they are. -/
theorem leadingIds_toString {rest : List String} (hrest : ∀ w ∈ rest.head?, w.toList.all Text.isDigit = false) :
    ∀ {ids : List Nat}, (∀ i ∈ ids, (toString i).length ≤ Text.integerDigitLimit) →
      leadingIds (ids.map toString ++ rest) = .ok (ids.map Int.ofNat, rest)
  | [], _ => by
    rcases rest with _ | ⟨w, ws⟩
    · rfl
    · rw [List.map_nil, List.nil_append, leadingIds, if_neg (by simp [hrest w rfl])]
      rfl
  | i :: ids, hids => by
    have hdigits : (toString i).toList.all Text.isDigit = true :=
      List.all_eq_true.2 fun c hc => Text.isDigit_of_plain (plain_of_mem_toString hc)
    rw [List.map_cons, List.cons_append, leadingIds, if_pos hdigits,
      Text.readInteger_toString (hids i List.mem_cons_self),
      leadingIds_toString hrest fun j hj => hids j (List.mem_cons_of_mem i hj)]
    rfl

section Heading

variable {rule : Rule} (hrule : rule ∈ Rule.catalog) {ids : List Nat}

include hrule

theorem solid_name : Solid rule.id.name := by
  have htable : ∀ r ∈ Rule.catalog, Solid r.id.name := by decide +kernel
  exact htable rule hrule

theorem ofName_name : Rule.ofName rule.id.name = .ok rule := by
  have htable : ∀ r ∈ Rule.catalog, Rule.ofName r.id.name = .ok r := by decide +kernel
  exact htable rule hrule

theorem splitWords_heading :
    (Text.splitWords (heading rule ids).toList).map String.ofList = rule.id.name :: ids.map toString := by
  refine Text.words_joinWith fun w hw => ?_
  rcases List.mem_cons.1 hw with rfl | hw
  · exact solid_name hrule
  · obtain ⟨i, -, rfl⟩ := List.mem_map.1 hw
    exact solid_toString i

theorem heading_not_mem_colon : ':' ∉ (heading rule ids).toList := by
  have htable : ∀ r ∈ Rule.catalog, ':' ∉ r.id.name.toList := by decide +kernel
  intro hc
  rcases Text.mem_joinWith hc with hc | ⟨w, hw, hc⟩
  · exact absurd hc (by decide)
  · rcases List.mem_cons.1 hw with rfl | hw
    · exact htable rule hrule hc
    · obtain ⟨i, -, rfl⟩ := List.mem_map.1 hw
      exact absurd (plain_of_mem_toString hc) (by decide)

/-- What is read from a line that begins with a rule and steps: the formula is the text behind the colon, or the
words behind the steps. -/
theorem read_of_split {text : String} {head : List Char} {tail : Option (List Char)} {rest : List String} {x : String}
    (hsplit : splitColon text.toList = (head, tail))
    (hwords : (Text.splitWords head).map String.ofList = (rule.id.name :: ids.map toString) ++ rest)
    (hplace : tail = none ∨ rest = []) (hrest : ∀ w ∈ rest.head?, w.toList.all Text.isDigit = false)
    (hids : ∀ i ∈ ids, (toString i).length ≤ Text.integerDigitLimit)
    (hx : tail.elim (Text.joinWith " " rest) (fun cs => Text.trim (String.ofList cs)) = x) (hne : x ≠ "") :
    read text = .ok ⟨rule, ids.map Int.ofNat, some x⟩ := by
  have hplaced : (tail.isSome && !rest.isEmpty) = false := by
    rcases hplace with rfl | rfl
    · rfl
    · rw [List.isEmpty_nil, Bool.not_true, Bool.and_false]
  have hfilled : x.isEmpty = false := by simpa using hne
  rw [List.cons_append] at hwords
  unfold read
  rw [hsplit]
  dsimp only
  rw [hwords]
  dsimp only
  rw [ofName_name hrule]
  dsimp only
  rw [leadingIds_toString hrest hids]
  dsimp only
  rw [hplaced]
  subst hx
  rcases tail with _ | cs
  · dsimp only [Option.elim] at hfilled ⊢
    rw [hfilled, Bool.and_false]
    rfl
  · dsimp only [Option.elim] at hfilled ⊢
    rw [hfilled, Bool.and_false]
    rfl

/-- Behind a colon a text is taken as it stands, but for the blanks around it. -/
theorem read_behind_colon (hids : ∀ i ∈ ids, (toString i).length ≤ Text.integerDigitLimit) {gap gap' x : String}
    (hgap : AllBlank gap) (hgap' : AllBlank gap') (hx : Trimmed x) :
    read (heading rule ids ++ gap ++ ":" ++ gap' ++ x) = .ok ⟨rule, ids.map Int.ofNat, some x⟩ := by
  have hcolon : ':' ∉ (heading rule ids).toList ++ gap.toList := by
    rw [List.mem_append, not_or]
    exact ⟨heading_not_mem_colon hrule, not_mem_colon_of_blank hgap⟩
  have hsplit : splitColon (heading rule ids ++ gap ++ ":" ++ gap' ++ x).toList =
      ((heading rule ids).toList ++ gap.toList, some (gap' ++ x).toList) := by
    simpa using splitColon_append (gap' ++ x).toList hcolon
  have hwords : (Text.splitWords ((heading rule ids).toList ++ gap.toList)).map String.ofList =
      (rule.id.name :: ids.map toString) ++ [] := by
    rw [Text.splitWords_append_blanks _ hgap, splitWords_heading hrule, List.append_nil]
  refine read_of_split hrule hsplit hwords (.inr rfl) (by simp) hids ?_ hx.nonempty
  rw [Option.elim_some, String.ofList_toList]
  exact Text.trim_append hgap' hx

/-- Behind the numbers the words of a text are taken, if it has no colon and its first word is no number. -/
theorem read_behind_ids (hids : ∀ i ∈ ids, (toString i).length ≤ Text.integerDigitLimit) {gap x : String}
    (hne : gap ≠ "") (hgap : AllBlank gap) {c : Char} {cs : List Char} (hcs : x.toList = c :: cs)
    (hc : Text.isBlank c = false) (hdigit : Text.isDigit c = false) (hcolon : ':' ∉ x.toList) :
    read (heading rule ids ++ gap ++ x) = .ok ⟨rule, ids.map Int.ofNat, some (Text.joinWith " " (Text.words x))⟩ := by
  obtain ⟨w, ws, hfirst⟩ := Text.splitWords_begin hc cs
  rw [← hcs] at hfirst
  have hnone : ':' ∉ (heading rule ids ++ gap ++ x).toList := by
    rw [String.toList_append, String.toList_append, List.mem_append, List.mem_append, not_or, not_or]
    exact ⟨⟨heading_not_mem_colon hrule, not_mem_colon_of_blank hgap⟩, hcolon⟩
  have hwords : (Text.splitWords (heading rule ids ++ gap ++ x).toList).map String.ofList =
      (rule.id.name :: ids.map toString) ++ Text.words x := by
    rw [String.toList_append, String.toList_append,
      Text.splitWords_gap _ _ (show gap.toList ≠ [] by simpa using hne) hgap, List.map_append,
      splitWords_heading hrule]
    rfl
  refine read_of_split hrule (splitColon_of_not_mem hnone) hwords (.inl rfl) ?_ hids rfl ?_
  · rw [Text.words, hfirst]
    rintro _ ⟨⟩
    simp [hdigit]
  · rw [Text.words, hfirst, List.map_cons]
    exact Text.joinWith_ne_empty " " (by simp) _

end Heading

/-- For a rule of the catalog, steps by numbers that are not too long, and a text with no blank at its ends: the
line with a colon in front of the text is read as that move, whatever the text is and however many blanks are around
the colon. If the lexer reads the text, the line without a colon is read as that move too, but for the blanks in
the text, which has the same tokens and so is the same formula, or refused for the same cause. -/
theorem read_notations (rule : Rule) (ids : List Nat) (x : String) (hrule : rule ∈ Rule.catalog)
    (hids : ∀ i ∈ ids, (toString i).length ≤ Text.integerDigitLimit) (hx : Trimmed x) :
    (∀ gap gap', AllBlank gap → AllBlank gap' →
      read (heading rule ids ++ gap ++ ":" ++ gap' ++ x) = .ok ⟨rule, ids.map Int.ofNat, some x⟩) ∧
    (∀ ts, tokenize x = .ok ts → ∀ gap, gap ≠ "" → AllBlank gap →
      ∃ y us, read (heading rule ids ++ gap ++ x) = .ok ⟨rule, ids.map Int.ofNat, some y⟩ ∧
        tokenize y = .ok us ∧ us.map Token.word = ts.map Token.word ∧
        ∃ a ∈ ts, ∃ b ∈ us, b.word = a.word ∧ Agree a b (Formula.read x) (Formula.read y)) := by
  refine ⟨fun gap gap' hgap hgap' => read_behind_colon hrule hids hgap hgap' hx, fun ts hts gap hne hgap => ?_⟩
  have hcut := (Token.scanned 0 x.toList).segmented hts
  obtain ⟨c, cs, hcs⟩ := List.exists_cons_of_ne_nil (show x.toList ≠ [] by simpa using hx.nonempty)
  have hc : Text.isBlank c = false := hx.first c (by rw [hcs]; rfl)
  have hdigit : Text.isDigit c = false := Token.Segmented.not_isDigit (hcs ▸ hcut) hc
  obtain ⟨us, hus, hword⟩ := Token.tokenize_words hts
  exact ⟨_, us, read_behind_ids hrule hids hne hgap hcs hc hdigit hcut.not_mem_colon, hus, hword,
    Formula.read_of_same_words hts hus hword⟩

/-- Behind a colon stands a text that begins with a number and has colons in it. Without one a formula is read with
its blanks made spaces. -/
theorem read_notations_disjunction :
    read "or_intro_left 1 20 : 3 :: q" = .ok ⟨⟨.orIntroLeft, "∨ Introduction (Left)", "From P, derive P∨Q",
      "introduction", 1⟩, [1, 20], some "3 :: q"⟩ ∧
    ∃ y us, read "or_intro_left 1 20 q  ^\tr" = .ok ⟨⟨.orIntroLeft, "∨ Introduction (Left)", "From P, derive P∨Q",
      "introduction", 1⟩, [1, 20], some y⟩ ∧ tokenize y = .ok us ∧
      us.map Token.word = [(.identifier, "q"), (.operator .and, "^"), (.identifier, "r"), (.finish, "")] := by
  have hrule : ⟨.orIntroLeft, "∨ Introduction (Left)", "From P, derive P∨Q", "introduction", 1⟩ ∈ Rule.catalog := by
    decide +kernel
  have hids : ∀ i ∈ [1, 20], (toString i).length ≤ Text.integerDigitLimit := by decide +kernel
  have hspace : AllBlank " " := by decide
  have hcolons : Trimmed "3 :: q" := by decide +kernel
  have hformula : Trimmed "q  ^\tr" := by decide +kernel
  have htokens : tokenize "q  ^\tr" = .ok [⟨.identifier, "q", 0⟩, ⟨.operator .and, "^", 3⟩, ⟨.identifier, "r", 5⟩,
      ⟨.finish, "", 6⟩] := by decide +kernel
  refine ⟨(read_notations _ [1, 20] "3 :: q" hrule hids hcolons).1 " " " " hspace hspace, ?_⟩
  obtain ⟨y, us, hread, hus, hword, -⟩ :=
    (read_notations _ [1, 20] "q  ^\tr" hrule hids hformula).2 _ htokens " " (by decide) hspace
  exact ⟨y, us, hread, hus, hword⟩

end Move

end Deduction
