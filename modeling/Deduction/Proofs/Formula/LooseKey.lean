/-
What the loose key of a text says of it. The key is the row of the tokens of the text in small letters, without
parentheses and with nothing in between (`looseKey_toList`). In a text that writes a formula an operator stands
behind every operand, and no operator behind another one or behind a negation, so each of the tokens is the
longest spelling at its place in that row (`Yields.greedy`), and the row can be cut in no other such way. Two
texts that write formulas so have the same key exactly when their tokens agree in small letters
(`Writes.looseKey_eq_iff`, and `looseKey_identifies` for texts that are read); if they write one formula,
exactly when they spell it alike (`Writes.sameLoosely_iff`). Of texts that write nothing the key still says that
blanks and parentheses do not count, and it is its own key (`looseKey_stable`).
-/
import Deduction.Proofs.Formula.Yield
import Deduction.Proofs.Text.LowerCase
import Deduction.Proofs.Token.LongestMatch

namespace Deduction

open Token

/-! ## Small letters -/

/-- A property of the characters of the first block, checked one by one. -/
theorem forall_ascii {P : Char → Prop} (h : ∀ n < 128, P (Char.ofNat n)) {c : Char} (hc : c.toNat < 128) :
    P c := by
  have hp := h c.toNat hc
  rwa [Char.ofNat_toNat] at hp

theorem toLower_of_ascii {p : Char → Bool}
    (hp : ∀ n < 128, p (Char.ofNat n) = true → p (Char.ofNat n).toLower = true) {c : Char} (hc : c.toNat < 128)
    (h : p c = true) : p c.toLower = true :=
  forall_ascii (P := fun c => p c = true → p c.toLower = true) hp hc h

/-- The character is lowered without regard to its neighbours, and to its plain small letter. -/
def LowersPlainly (c : Char) : Prop :=
  c ≠ 'Σ' ∧ Text.lowerChar c = [c.toLower]

instance : DecidablePred LowersPlainly := fun c =>
  inferInstanceAs (Decidable (c ≠ 'Σ' ∧ Text.lowerChar c = [c.toLower]))

/-- The run of the plain capitals, which is the first one. -/
def plainCapitals : Text.CapitalRun := ⟨0x41, 0x5A, 1, 32⟩

theorem capitalRuns_eq : Text.capitalRuns = plainCapitals :: Text.capitalRuns.tail := rfl

theorem lowersPlainly_of_ascii {c : Char} (h : c.toNat < 128) : LowersPlainly c := by
  have hne : ∀ {d : Char}, 128 ≤ d.toNat → c ≠ d := by
    rintro d hd rfl
    omega
  -- no other run has a character of the first block
  have hfar : ∀ r ∈ Text.capitalRuns.tail, 128 ≤ r.first := by decide +kernel
  have hrest : Text.capitalRuns.tail.find? (·.contains c.toNat) = none := by
    rw [List.find?_eq_none]
    intro r hr
    have hfirst := hfar r hr
    simp only [Text.CapitalRun.contains, Bool.and_eq_true, decide_eq_true_eq, not_and]
    omega
  have hlower : (if plainCapitals.contains c.toNat then Char.ofNat (c.toNat + 32) else c) = c.toLower :=
    forall_ascii (P := fun c => (if plainCapitals.contains c.toNat then Char.ofNat (c.toNat + 32) else c) =
      c.toLower) (by decide +kernel) h
  refine ⟨hne (by decide), ?_⟩
  rw [Text.lowerChar, if_neg (hne (by decide)), capitalRuns_eq, List.find?_cons]
  cases hin : plainCapitals.contains c.toNat with
  | true =>
    rw [← hlower, if_pos hin]
    rfl
  | false =>
    rw [← hlower, if_neg (by simp [hin])]
    dsimp only
    rw [hrest]

namespace Token

theorem toNat_lt_of_continues {c : Char} (h : continuesIdentifier c = true) : c.toNat < 128 := by
  rw [continuesIdentifier_iff, startsIdentifier_iff] at h
  omega

/-- The characters of tokens are lowered each by itself. -/
theorem Spells.lowersPlainly {cs : List Char} {kind : Kind} (h : Spells cs kind) : ∀ c ∈ cs, LowersPlainly c := by
  rcases spells_iff.1 h with hs | ⟨hword, -⟩
  · have htable : spellings.all (fun s => s.1.all (LowersPlainly ·)) = true := by decide +kernel
    intro c hc
    exact of_decide_eq_true (List.all_eq_true.1 (List.all_eq_true.1 htable _ hs) c hc)
  · exact fun c hc => lowersPlainly_of_ascii (toNat_lt_of_continues (hword.continues c hc))

/-- The text of a token in small letters. -/
def small (t : Token) : List Char :=
  t.text.toList.map Char.toLower

theorem sign_small {s : List Char × Kind} (h : s ∈ spellings) : s.1.map Char.toLower = s.1 := by
  have htable : ∀ s ∈ spellings, s.1.map Char.toLower = s.1 := by decide
  exact htable s h

theorem IsWord.small {cs : List Char} (h : IsWord cs) : IsWord (cs.map Char.toLower) := by
  rcases cs with _ | ⟨c, cs⟩
  · exact h
  · have hstarts := toLower_of_ascii (p := startsIdentifier) (by decide +kernel)
      (toNat_lt_of_continues (continues_of_starts h.1)) h.1
    refine ⟨hstarts, fun d hd => ?_⟩
    obtain ⟨e, he, rfl⟩ := List.mem_map.1 hd
    exact toLower_of_ascii (p := continuesIdentifier) (by decide +kernel) (toNat_lt_of_continues (h.2 e he))
      (h.2 e he)

/-- In small letters a sign is still the sign, and a word still a word. -/
theorem small_cases {t : Token} (h : Spells t.text.toList t.kind) :
    (t.small, t.kind) ∈ spellings ∧ t.small = t.text.toList ∨
      IsWord t.small ∧ t.kind = wordKind t.text.toList := by
  rcases spells_iff.1 h with hs | ⟨hword, hkind⟩
  · have hsame : t.small = t.text.toList := sign_small hs
    exact .inl ⟨hsame ▸ hs, hsame⟩
  · exact .inr ⟨hword.small, hkind⟩

end Token

/-! ## The key as a row of tokens -/

/-- The characters of a text that its key is made of. -/
def solid (cs : List Char) : List Char :=
  (cs.filter (!Text.isBlank ·)).filter (!isParenthesis ·)

theorem solid_append (a b : List Char) : solid (a ++ b) = solid a ++ solid b := by
  unfold solid
  rw [List.filter_append, List.filter_append]

theorem mem_solid {cs : List Char} {c : Char} : c ∈ solid cs ↔ c ∈ cs ∧ separates c = false := by
  rw [solid, separates, List.mem_filter, List.mem_filter, Bool.or_eq_false_iff, Bool.not_eq_true', Bool.not_eq_true',
    and_assoc]

theorem solid_of_separates {c : Char} (hc : separates c = true) (cs : List Char) : solid (c :: cs) = solid cs := by
  have hnone : solid [c] = [] := List.eq_nil_iff_forall_not_mem.2 fun d hd => by
    obtain ⟨hmem, hd⟩ := mem_solid.1 hd
    rw [List.mem_singleton.1 hmem, hc] at hd
    cases hd
  rw [← List.singleton_append, solid_append, hnone, List.nil_append]

theorem solid_eq_self {cs : List Char} (h : ∀ c ∈ cs, separates c = false) : solid cs = cs := by
  have hno : ∀ c ∈ cs, Text.isBlank c = false ∧ isParenthesis c = false := fun c hc => by
    simpa [separates] using h c hc
  have hblanks : cs.filter (!Text.isBlank ·) = cs := List.filter_eq_self.2 fun c hc => by simp [(hno c hc).1]
  have hparens : cs.filter (!isParenthesis ·) = cs := List.filter_eq_self.2 fun c hc => by simp [(hno c hc).2]
  rw [solid, hblanks, hparens]

namespace Token

/-- The key keeps all characters of a token, or none of a parenthesis. -/
theorem Spells.solid {cs : List Char} {kind : Kind} (h : Spells cs kind) :
    solid cs = if kind.inTree then cs else [] := by
  rcases spells_iff.1 h with hs | ⟨hword, rfl⟩
  · have htable : ∀ s ∈ spellings, Deduction.solid s.1 = if s.2.inTree then s.1 else [] := by decide
    exact htable _ hs
  · have hin : (wordKind cs).inTree = true := by
      unfold wordKind
      split_ifs <;> rfl
    rw [if_pos hin, solid_eq_self fun c hc => not_separates_of_continues (hword.continues c hc)]

theorem Scanned.solid {pos : Nat} {cs : List Char} {r : Except FormulaError (List Token)} (h : Scanned pos cs r)
    {ts : List Token} (hr : r = .ok ts) : solid cs = (bare ts).flatMap (·.text.toList) := by
  induction h generalizing ts with
  | done => cases hr; rfl
  | @blank pos c cs r hc _ ih =>
    rw [← ih hr, solid_of_separates (by simp [separates, hc])]
  | @token pos text rest kind r hlong _ ih =>
    rcases r with e | us
    · cases hr
    · cases hr
      rw [solid_append, hlong.spells.solid, ih rfl]
      by_cases hin : kind.inTree = true
      · rw [if_pos hin, bare_cons hin, List.flatMap_cons, String.toList_ofList]
      · rw [if_neg hin, bare_cons_of_not (Bool.eq_false_iff.2 hin), List.nil_append]
  | stuck => cases hr

end Token

theorem spells_of_mem_bareTokens {s : String} {t : Token} (h : t ∈ bareTokens s) :
    Spells t.text.toList t.kind := by
  unfold bareTokens at h
  split at h
  · rename_i ts hts
    obtain ⟨w, rfl, hw⟩ := (scanned 0 s.toList).covers hts
    rw [bare_append] at h
    rcases List.mem_append.1 h with h | h
    · obtain ⟨n, -, hlong⟩ := hw.longest t (mem_of_mem_bare h)
      exact hlong.spells
    · cases h
  · cases h

/-- The key of a text is the row of its tokens in small letters, without the parentheses. -/
theorem looseKey_toList {s : String} {ts : List Token} (h : tokenize s = .ok ts) :
    (looseKey s).toList = ((bareTokens s).map small).flatten := by
  have hsolid : solid s.toList = (bareTokens s).flatMap (·.text.toList) := by
    unfold bareTokens
    rw [h]
    exact (scanned 0 s.toList).solid h
  have hplain : ∀ c ∈ solid s.toList, LowersPlainly c := by
    rw [hsolid]
    intro c hc
    obtain ⟨t, ht, hct⟩ := List.mem_flatMap.1 hc
    exact (spells_of_mem_bareTokens ht).lowersPlainly c hct
  calc (looseKey s).toList = Text.lowerAfter [] (solid s.toList) := String.toList_ofList
    _ = (solid s.toList).map Char.toLower := Text.lowerAfter_of_single hplain []
    _ = (bareTokens s).flatMap small := by rw [hsolid, List.map_flatMap]; rfl
    _ = ((bareTokens s).map small).flatten := List.flatMap_def ..

/-! ## Rows that can be cut in one way -/

/-- Each of the texts is the longest spelling where it stands in the row of them. -/
def Greedy : List (List Char) → Prop
  | [] => True
  | w :: ws => (∃ kind, LongestAt (w ++ ws.flatten) w kind) ∧ Greedy ws

theorem Greedy.eq_of_flatten_eq : ∀ {ws vs : List (List Char)}, Greedy ws → Greedy vs →
    ws.flatten = vs.flatten → ws = vs
  | [], [], _, _, _ => rfl
  | [], v :: vs, _, ⟨⟨k, hv⟩, _⟩, h => by
    have hnil : v ++ vs.flatten = [] := h.symm
    exact absurd (List.append_eq_nil_iff.1 hnil).1 hv.spells.ne_nil
  | w :: ws, [], ⟨⟨k, hw⟩, _⟩, _, h => by
    have hnil : w ++ ws.flatten = [] := h
    exact absurd (List.append_eq_nil_iff.1 hnil).1 hw.spells.ne_nil
  | w :: ws, v :: vs, ⟨⟨k, hw⟩, hws⟩, ⟨⟨l, hv⟩, hvs⟩, h => by
    have hrow : w ++ ws.flatten = v ++ vs.flatten := h
    obtain ⟨rfl, -⟩ := hw.unique (hrow ▸ hv)
    rw [hws.eq_of_flatten_eq hvs (List.append_cancel_left hrow)]

namespace Token

variable {t : Token} {rest : List Char}

/-- A variable or a constant, in front of what goes on no word. -/
theorem exists_longestAt_of_atom (h : Spells t.text.toList t.kind)
    (hkind : t.kind = .identifier ∨ ∃ b, t.kind = .constant b)
    (hrest : ∀ c ∈ rest.head?, continuesIdentifier c = false) : ∃ k, LongestAt (t.small ++ rest) t.small k := by
  rcases small_cases h with ⟨hs, -⟩ | ⟨hword, -⟩
  · refine ⟨_, longestAt_sign hs fun hbar => ?_⟩
    have htable : ∀ s ∈ spellings, s.1 = ['|'] → s.2 = .operator .or := by decide
    have hor : t.kind = .operator .or := htable _ hs hbar
    rcases hkind with hk | ⟨b, hk⟩ <;> rw [hk] at hor <;> cases hor
  · exact ⟨_, longestAt_word hword hrest⟩

theorem sign_of_operator (h : Spells t.text.toList t.kind)
    (hkind : t.kind = .negation ∨ ∃ op, t.kind = .operator op) : (t.small, t.kind) ∈ spellings := by
  rcases small_cases h with ⟨hs, -⟩ | ⟨-, hword⟩
  · exact hs
  · unfold wordKind at hword
    rcases hkind with hk | ⟨op, hk⟩ <;> rw [hk] at hword <;> split_ifs at hword

/-- A negation or a connective, in front of what does not begin with a bar. -/
theorem exists_longestAt_of_operator (h : Spells t.text.toList t.kind)
    (hkind : t.kind = .negation ∨ ∃ op, t.kind = .operator op) (hrest : ∀ c ∈ rest.head?, c ≠ '|') :
    ∃ k, LongestAt (t.small ++ rest) t.small k :=
  ⟨_, longestAt_sign (sign_of_operator h hkind) fun _ => hrest⟩

/-- No word goes on with a negation or a connective. -/
theorem not_continues_operator (h : Spells t.text.toList t.kind)
    (hkind : t.kind = .negation ∨ ∃ op, t.kind = .operator op) :
    ∀ c ∈ (t.small ++ rest).head?, continuesIdentifier c = false := by
  obtain ⟨d, tail, hd, hno, -⟩ := sign_head (sign_of_operator h hkind)
  dsimp only at hd
  rw [hd]
  rintro c ⟨⟩
  exact hno

/-- Only a connective begins with a bar. -/
theorem head_ne_bar (h : Spells t.text.toList t.kind) (hkind : ∀ op, t.kind ≠ .operator op) :
    ∀ c ∈ (t.small ++ rest).head?, c ≠ '|' := by
  rcases small_cases h with ⟨hs, -⟩ | ⟨hword, -⟩
  · have htable : ∀ s ∈ spellings, s.1.head? = some '|' → s.2 = .operator .or := by decide
    obtain ⟨d, tail, hd, -⟩ := sign_head hs
    dsimp only at hd
    rintro c hc rfl
    rw [hd] at hc
    cases hc
    exact hkind .or (htable _ hs (by rw [hd]; rfl))
  · rcases hsmall : t.small with _ | ⟨d, tail⟩
    · rw [hsmall] at hword
      exact hword.elim
    · rw [hsmall] at hword
      rintro c ⟨⟩ rfl
      exact absurd hword.1 (by decide)

end Token

/-- The yield of a tree begins with no connective, so with no bar. -/
theorem Yields.head_ne_bar {f : Formula} {w : List Token} (h : Yields f w)
    (hw : ∀ t ∈ w, Spells t.text.toList t.kind) (ws : List (List Char)) :
    ∀ c ∈ (w.map small ++ ws).flatten.head?, c ≠ '|' := by
  induction h generalizing ws with
  | name ht => exact Token.head_ne_bar (hw _ List.mem_cons_self) (by simp [ht])
  | top ht => exact Token.head_ne_bar (hw _ List.mem_cons_self) (by simp [ht])
  | bottom ht => exact Token.head_ne_bar (hw _ List.mem_cons_self) (by simp [ht])
  | neg ht => exact Token.head_ne_bar (hw _ List.mem_cons_self) (by simp [ht])
  | binary _ _ _ ihu =>
    rw [List.map_append, List.append_assoc]
    exact ihu (fun t ht => hw t (List.mem_append_left _ ht)) _

/-- The tokens of a yield, in small letters, in front of a greedy row with which no word goes on. -/
theorem Yields.greedy {f : Formula} {w : List Token} (h : Yields f w)
    (hw : ∀ t ∈ w, Spells t.text.toList t.kind) {ws : List (List Char)}
    (hnext : ∀ c ∈ ws.flatten.head?, continuesIdentifier c = false) (hg : Greedy ws) :
    Greedy (w.map small ++ ws) := by
  induction h generalizing ws with
  | name ht => exact ⟨exists_longestAt_of_atom (hw _ List.mem_cons_self) (.inl ht) hnext, hg⟩
  | top ht => exact ⟨exists_longestAt_of_atom (hw _ List.mem_cons_self) (.inr ⟨_, ht⟩) hnext, hg⟩
  | bottom ht => exact ⟨exists_longestAt_of_atom (hw _ List.mem_cons_self) (.inr ⟨_, ht⟩) hnext, hg⟩
  | neg ht ha ih =>
    have hw' := fun t ht => hw t (List.mem_cons_of_mem _ ht)
    exact ⟨exists_longestAt_of_operator (hw _ List.mem_cons_self) (.inl ht) (ha.head_ne_bar hw' ws),
      ih hw' hnext hg⟩
  | @binary t op u v a b ht _ hv ihu ihv =>
    have hu' := fun s hs => hw s (List.mem_append_left _ hs)
    have ht' := hw t (List.mem_append_right _ List.mem_cons_self)
    have hv' := fun s hs => hw s (List.mem_append_right _ (List.mem_cons_of_mem _ hs))
    -- from the right: the right operand, the connective in front of it, the left operand in front of that
    have hright : Greedy (t.small :: (v.map small ++ ws)) :=
      ⟨exists_longestAt_of_operator ht' (.inr ⟨op, ht⟩) (hv.head_ne_bar hv' ws), ihv hv' hnext hg⟩
    rw [List.map_append, List.append_assoc]
    exact ihu hu' (not_continues_operator ht' (.inr ⟨op, ht⟩)) hright

/-! ## Texts with the same key -/

/-- The tokens in small letters are the spelling in small letters, character by character. -/
theorem map_small_bareTokens (s : String) :
    (bareTokens s).map small = ((spelling s).map String.toLower).map String.toList := by
  rw [spelling, List.map_map, List.map_map]
  refine List.map_congr_left fun t _ => ?_
  exact String.toList_map.symm

section SameKey

variable {s t : String} {f g : Formula} {m n : Nat}

theorem Writes.looseKey_toList (h : Writes s f m) :
    (looseKey s).toList = ((bareTokens s).map small).flatten := by
  obtain ⟨w, ⟨ts, hts, -⟩, -⟩ := h
  exact Deduction.looseKey_toList hts

theorem Writes.greedy (h : Writes s f m) : Greedy ((bareTokens s).map small) := by
  have hrow : Greedy ((bareTokens s).map small ++ []) :=
    h.yields.greedy (fun t ht => spells_of_mem_bareTokens ht) (by simp) trivial
  rwa [List.append_nil] at hrow

/-- Texts of formulas have the same key exactly when, without parentheses, their tokens agree in small
letters. -/
theorem Writes.looseKey_eq_iff (hs : Writes s f m) (ht : Writes t g n) :
    looseKey s = looseKey t ↔ (bareTokens s).map small = (bareTokens t).map small := by
  rw [← String.toList_inj, hs.looseKey_toList, ht.looseKey_toList]
  exact ⟨hs.greedy.eq_of_flatten_eq ht.greedy, congrArg List.flatten⟩

theorem Writes.sameLoosely_eq_true_iff (hs : Writes s f m) (ht : Writes t g n) :
    sameLoosely s t = true ↔ (bareTokens s).map small = (bareTokens t).map small := by
  rw [sameLoosely, beq_iff_eq]
  exact hs.looseKey_eq_iff ht

/-- What is taken for the same formula has as many nodes. -/
theorem Writes.size_eq (hs : Writes s f m) (ht : Writes t g n) (h : sameLoosely s t = true) :
    f.size = g.size := by
  have hlen := congrArg List.length ((hs.sameLoosely_eq_true_iff ht).1 h)
  rwa [List.length_map, List.length_map, hs.yields.length_eq, ht.yields.length_eq] at hlen

end SameKey

/-- Two texts that are read as formulas have the same key exactly when, the parentheses left out, they have the
same tokens in small letters: without blanks and parentheses no two tokens run into another one. -/
theorem looseKey_identifies (s t : String) (f g : Formula) (hs : Formula.read s = .ok f)
    (ht : Formula.read t = .ok g) :
    looseKey s = looseKey t ↔ (spelling s).map String.toLower = (spelling t).map String.toLower := by
  obtain ⟨m, hm⟩ := Formula.writes_of_read hs
  obtain ⟨n, hn⟩ := Formula.writes_of_read ht
  rw [hm.looseKey_eq_iff hn, map_small_bareTokens, map_small_bareTokens]
  exact (List.map_injective_iff.2 fun _ _ => String.toList_inj.1).eq_iff

/-- Grouping and case are no matter, while a bar is not taken for a double bar. -/
theorem looseKey_identifies_regrouped :
    looseKey "(P ^ T) | ~q_1" = looseKey "p^(t|(~Q_1))" ∧ looseKey "p | q" ≠ looseKey "p || q" := by
  constructor
  · have hleft : (spelling "(P ^ T) | ~q_1").map String.toLower = ["p", "^", "t", "|", "~", "q_1"] := by
      decide +kernel
    have hright : (spelling "p^(t|(~Q_1))").map String.toLower = ["p", "^", "t", "|", "~", "q_1"] := by
      decide +kernel
    exact (looseKey_identifies "(P ^ T) | ~q_1" "p^(t|(~Q_1))"
      (.binary .or (.binary .and (.var "P") .top) (.neg (.var "q_1")))
      (.binary .and (.var "p") (.binary .or (.var "t") (.neg (.var "Q_1"))))
      (by decide +kernel) (by decide +kernel)).2 (hleft.trans hright.symm)
  · have hbar : (spelling "p | q").map String.toLower = ["p", "|", "q"] := by decide +kernel
    have hbars : (spelling "p || q").map String.toLower = ["p", "||", "q"] := by decide +kernel
    intro hkey
    have hsame := (looseKey_identifies "p | q" "p || q" (.binary .or (.var "p") (.var "q"))
      (.binary .or (.var "p") (.var "q")) (by decide +kernel) (by decide +kernel)).1 hkey
    rw [hbar, hbars] at hsame
    exact absurd hsame (by decide)

/-! ## Texts of one formula -/

/-- A word that is a constant is the letter of it. -/
theorem Token.eq_of_wordKind {cs ds : List Char} (h : wordKind cs = wordKind ds) (hne : wordKind cs ≠ .identifier) :
    cs = ds := by
  unfold wordKind at h hne
  split_ifs at h hne with hT hT' _ hF
  · exact hT.trans hT'.symm
  · cases h
  · cases h
  · exact hF.trans ‹ds = ['F']›.symm
  · exact absurd rfl hne

/-- Two spellings of one constant, negation or connective are the same if they agree in small letters. -/
theorem Token.text_eq_of_small {t u : Token} (ht : Spells t.text.toList t.kind) (hu : Spells u.text.toList u.kind)
    (hkind : t.kind = u.kind) (hne : t.kind ≠ .identifier) (h : t.small = u.small) : t.text = u.text := by
  refine String.toList_inj.1 ?_
  rcases small_cases ht with ⟨hsign, hst⟩ | ⟨hword, hkt⟩ <;>
    rcases small_cases hu with ⟨hsign', hsu⟩ | ⟨hword', hku⟩
  · exact hst.symm.trans (h.trans hsu)
  · exact absurd (h ▸ hword') (not_isWord_of_sign hsign)
  · exact absurd (h ▸ hword) (not_isWord_of_sign hsign')
  · exact eq_of_wordKind (hkt.symm.trans (hkind.trans hku)) (hkt ▸ hne)

theorem texts_eq_of_sameNodes {u v : List Token} (h : List.Forall₂ SameNode u v)
    (hu : ∀ t ∈ u, Spells t.text.toList t.kind) (hv : ∀ t ∈ v, Spells t.text.toList t.kind)
    (hsmall : u.map small = v.map small) : u.map (·.text) = v.map (·.text) := by
  induction h with
  | nil => rfl
  | @cons t t' u v ht _ ih =>
    obtain ⟨hhead, htail⟩ := List.cons.inj hsmall
    have htext : t.text = t'.text := by
      by_cases hname : t.kind = .identifier
      · exact ht.2 hname
      · exact text_eq_of_small (hu t List.mem_cons_self) (hv t' List.mem_cons_self) ht.1 hname hhead
    rw [List.map_cons, List.map_cons, htext, ih (fun s hs => hu s (List.mem_cons_of_mem t hs))
      (fun s hs => hv s (List.mem_cons_of_mem t' hs)) htail]

/-- Two texts of one formula are taken for the same exactly when they spell it alike. -/
theorem Writes.sameLoosely_iff {s t : String} {f : Formula} {m n : Nat} (hs : Writes s f m) (ht : Writes t f n) :
    sameLoosely s t = true ↔ spelling s = spelling t := by
  rw [hs.sameLoosely_eq_true_iff ht]
  constructor
  · exact texts_eq_of_sameNodes (hs.yields.sameNodes ht.yields) (fun t ht => spells_of_mem_bareTokens ht)
      fun t ht => spells_of_mem_bareTokens ht
  · intro h
    rw [map_small_bareTokens, map_small_bareTokens, h]

/-! ## Any text -/

/-- Lowering makes no blank and no parenthesis. -/
theorem not_separates_of_isSmall {d : Char} (h : Text.IsSmall d) : separates d = false := by
  have hout : Text.within ((0x28, 0x29) :: Text.blankSpans) d = false :=
    h.not_within (by decide) (by decide +kernel)
  rw [Bool.eq_false_iff]
  intro hd
  rw [Text.within, List.any_cons, Bool.or_eq_false_iff] at hout
  rcases (separates_iff d).1 hd with hblank | hparen
  · exact Bool.false_ne_true (hout.2.symm.trans hblank)
  · have hspan : ¬ (0x28 ≤ d.toNat ∧ d.toNat ≤ 0x29) := by simpa using hout.1
    omega

theorem not_separates_of_mem_looseKey {s : String} {d : Char} (h : d ∈ (looseKey s).toList) :
    separates d = false := by
  rw [looseKey, String.toList_ofList] at h
  rcases Text.mem_lower h with ⟨hd, -⟩ | hsmall
  · exact (mem_solid.1 hd).2
  · exact not_separates_of_isSmall hsmall

theorem looseKey_looseKey (s : String) : looseKey (looseKey s) = looseKey s := by
  have hsolid : solid (looseKey s).toList = (looseKey s).toList :=
    solid_eq_self fun _ hd => not_separates_of_mem_looseKey hd
  show String.ofList (Text.lower (solid (looseKey s).toList)) = looseKey s
  rw [hsolid, looseKey, String.toList_ofList, Text.lower_lower]

/-- A key of any text at all: it does not see where blanks and parentheses stand, has none itself, and is its own
key. -/
theorem looseKey_stable :
    (∀ (u v : String) (c : Char), Text.isBlank c = true ∨ isParenthesis c = true →
      looseKey (u ++ c.toString ++ v) = looseKey (u ++ v)) ∧
    ∀ t : String, looseKey (looseKey t) = looseKey t ∧
      ∀ c ∈ (looseKey t).toList, Text.isBlank c = false ∧ isParenthesis c = false := by
  refine ⟨fun u v c hc => ?_, fun t => ⟨looseKey_looseKey t, fun c hc => ?_⟩⟩
  · have hseparates : separates c = true := by simpa [separates] using hc
    have htext : (u ++ c.toString ++ v).toList = u.toList ++ c :: v.toList := by simp [String.toList_append]
    show String.ofList (Text.lower (solid (u ++ c.toString ++ v).toList)) =
      String.ofList (Text.lower (solid (u ++ v).toList))
    rw [htext, String.toList_append, solid_append, solid_append, solid_of_separates hseparates]
  · simpa [separates] using not_separates_of_mem_looseKey hc

/-- The sigma that a blank or a parenthesis seems to end a word with is in the middle of one for the key, and the
dotted capital I goes to two characters, neither of which changes again. -/
theorem looseKey_stable_sigma :
    looseKey "ΟΔΟΣ\u2003Α" = "οδοσα" ∧ looseKey "(ΟΔΟΣ)" = "οδος" ∧
    looseKey "İ (ΟΔΟΣ)" = "i\u0307οδος" ∧ looseKey "i\u0307οδος" = "i\u0307οδος" := by
  obtain ⟨hseparators, hkey⟩ := looseKey_stable
  have hdotted : looseKey "İ (ΟΔΟΣ)" = "i\u0307οδος" := by decide +kernel
  refine ⟨?_, ?_, hdotted, hdotted ▸ (hkey "İ (ΟΔΟΣ)").1⟩
  · exact (hseparators "ΟΔΟΣ" "Α" '\u2003' (.inl (by decide))).trans (by decide +kernel)
  · exact (hseparators "" "ΟΔΟΣ)" '(' (.inr (by decide))).trans (by decide +kernel)

end Deduction
