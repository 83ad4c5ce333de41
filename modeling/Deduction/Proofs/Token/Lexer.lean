/-
The lexer on texts put together: a blank or a parenthesis ends the token in front of it, so a text is
read up to such a character as if it ended there (`scan_append`). Where a text stands changes the
places of its tokens and nothing else (`scan_word`), and what a scan yields are names, signs and one
end (`scan_shape`).

`Lexes` says which words, that is kinds and texts, a row of characters is read as; the lemmas on it
are what printed formulas are read with.
-/
import Deduction.Formula.LooseKey
import Deduction.Formula.Print
import Deduction.Token.Lexer
import Mathlib.Data.List.Find
import Mathlib.Data.List.TakeWhile

namespace Deduction

namespace Token

/-- What a token is apart from its place. -/
def word (t : Token) : Kind × String :=
  (t.kind, t.text)

/-- The characters that end the token in front of them. -/
def separates (c : Char) : Bool :=
  Text.isBlank c || isParenthesis c

/-! ## The longest spelling at the head -/

theorem startsIdentifier_iff (c : Char) : startsIdentifier c = true ↔
    (65 ≤ c.toNat ∧ c.toNat ≤ 90) ∨ (97 ≤ c.toNat ∧ c.toNat ≤ 122) ∨ c.toNat = 95 := by
  have h95 : c = '_' ↔ c.toNat = 95 := Char.toNat_inj.symm
  have hletters : startsIdentifier c =
      ((decide (65 ≤ c.val ∧ c.val ≤ 90) || (decide (97 ≤ c.val) && decide (c.val ≤ 122))) || c == '_') := rfl
  simp [hletters, UInt32.le_iff_toNat_le, ← Char.toNat_val, h95, or_assoc]

theorem continuesIdentifier_iff (c : Char) : continuesIdentifier c = true ↔
    startsIdentifier c = true ∨ (48 ≤ c.toNat ∧ c.toNat ≤ 57) := by
  simp [continuesIdentifier, Char.isDigit, UInt32.le_iff_toNat_le, ← Char.toNat_val]

theorem separates_iff (c : Char) : separates c = true ↔
    Text.isBlank c = true ∨ c.toNat = 40 ∨ c.toNat = 41 := by
  have h40 : c = '(' ↔ c.toNat = 40 := Char.toNat_inj.symm
  have h41 : c = ')' ↔ c.toNat = 41 := Char.toNat_inj.symm
  simp [separates, isParenthesis, h40, h41]

theorem isBlank_bounds {c : Char} (h : Text.isBlank c = true) : c.toNat ≤ 32 ∨ 133 ≤ c.toNat := by
  simp only [Text.isBlank, Text.within, Text.blankSpans, List.any_cons, List.any_nil, Bool.or_false,
    Bool.or_eq_true, Bool.and_eq_true, decide_eq_true_eq] at h
  omega

theorem not_continues_of_separates {c : Char} (h : separates c = true) : continuesIdentifier c = false := by
  rw [Bool.eq_false_iff]
  intro hc
  rw [continuesIdentifier_iff, startsIdentifier_iff] at hc
  rw [separates_iff] at h
  rcases h with h | h
  · have := isBlank_bounds h
    omega
  · omega

/-- Behind its first character no spelling has a blank or a parenthesis. -/
theorem not_separates_of_spelling : ∀ s ∈ spellings, ∀ c ∈ s.1.tail, separates c = false := by
  have h : spellings.all (fun s => s.1.tail.all fun c => !separates c) = true := by decide
  simpa only [List.all_eq_true, Bool.not_eq_true'] using h

theorem isPrefixOf_append_cons {c : Char} (b : List Char) : ∀ (s a : List Char), c ∉ s →
    s.isPrefixOf (a ++ c :: b) = s.isPrefixOf a
  | [], _, _ => by simp
  | d :: s, [], h => by
    have hd : (d == c) = false := beq_false_of_ne fun e => h (by simp [e])
    simp [List.isPrefixOf, hd]
  | d :: s, x :: a, h => by
    have ih := isPrefixOf_append_cons b s a (fun hc => h (List.mem_cons_of_mem d hc))
    simp [List.isPrefixOf, ih]

theorem takeWhile_append_cons {p : Char → Bool} {c : Char} (hc : p c = false) (a b : List Char) :
    (a ++ c :: b).takeWhile p = a.takeWhile p := by
  rw [List.takeWhile_append]
  split
  · rename_i h
    simp [hc, (List.takeWhile_prefix p).eq_of_length h]
  · rfl

/-- The spelling at the head of a text is the same when the text goes on behind a blank or a
parenthesis. -/
theorem leading_append {c : Char} (hc : separates c = true) (x : Char) (a b : List Char) :
    leading? (x :: (a ++ c :: b)) = leading? (x :: a) := by
  have hfind : spellings.find? (fun s => s.1.isPrefixOf (x :: (a ++ c :: b))) =
      spellings.find? (fun s => s.1.isPrefixOf (x :: a)) := by
    apply List.find?_congr
    intro s hs
    -- the character behind the first text can only be the first one of a spelling
    have htail := not_separates_of_spelling s hs
    rcases s with ⟨_ | ⟨d, ds⟩, kind⟩
    · rfl
    · have hds : c ∉ ds := fun h => by simp [htail c h] at hc
      simp only [List.isPrefixOf, isPrefixOf_append_cons b ds a hds]
  have hword : leadingWord (x :: (a ++ c :: b)) = leadingWord (x :: a) := by
    simp only [leadingWord, takeWhile_append_cons (not_continues_of_separates hc)]
  unfold leading?
  rw [hfind, hword]

/-- The spelling at the head of a text is a part of it, and has a character at least. -/
theorem leading_initial {cs text : List Char} {kind : Kind} (h : leading? cs = some (text, kind)) :
    text <+: cs ∧ text ≠ [] := by
  unfold leading? at h
  split at h
  · rename_i s hs
    cases h
    refine ⟨List.isPrefixOf_iff_prefix.1 (by simpa using List.find?_some hs), ?_⟩
    have hne : ∀ s ∈ spellings, s.1 ≠ [] := by decide
    exact hne _ (List.mem_of_find?_eq_some hs)
  · split at h
    · cases h
    · rename_i word hword
      cases h
      refine ⟨?_, hword⟩
      rcases cs with _ | ⟨c, cs⟩
      · exact List.nil_prefix
      · simp only [leadingWord]
        split
        · exact List.cons_prefix_cons.2 ⟨rfl, List.takeWhile_prefix _⟩
        · exact List.nil_prefix

/-- A name: a letter or an underscore, letters, underscores and digits behind it, and neither of the
words that are constants. -/
structure IsName (s : String) : Prop where
  starts : ∃ c ∈ s.toList.head?, startsIdentifier c = true
  continues : ∀ c ∈ s.toList, continuesIdentifier c = true
  notTrue : s ≠ "T"
  notFalse : s ≠ "F"

theorem mem_leadingWord {cs : List Char} (h : leadingWord cs ≠ []) :
    (∃ c ∈ (leadingWord cs).head?, startsIdentifier c = true) ∧
      ∀ c ∈ leadingWord cs, continuesIdentifier c = true := by
  rcases cs with _ | ⟨c, cs⟩
  · exact absurd rfl h
  · simp only [leadingWord] at h ⊢
    split at h
    · rename_i hc
      rw [if_pos hc]
      refine ⟨⟨c, rfl, hc⟩, fun d hd => ?_⟩
      rcases List.mem_cons.1 hd with rfl | hd
      · simp [continuesIdentifier, hc]
      · exact List.mem_takeWhile_imp hd
    · exact absurd rfl h

/-- What is read at the head of a text is no end, and a name if it is an identifier. -/
theorem leading_kind {cs text : List Char} {kind : Kind} (h : leading? cs = some (text, kind)) :
    kind ≠ .finish ∧ (kind = .identifier → IsName (String.ofList text)) := by
  unfold leading? at h
  split at h
  · rename_i s hs
    cases h
    have hkind : ∀ s ∈ spellings, s.2 ≠ .finish ∧ s.2 ≠ .identifier := by decide
    obtain ⟨h1, h2⟩ := hkind _ (List.mem_of_find?_eq_some hs)
    exact ⟨h1, fun h => absurd h h2⟩
  · split at h
    · cases h
    · rename_i hword
      cases h
      obtain ⟨hs, hc⟩ := mem_leadingWord hword
      unfold wordKind
      split_ifs with hT hF
      · simp
      · simp
      · refine ⟨by simp, fun _ => ⟨?_, ?_, fun h => hT ?_, fun h => hF ?_⟩⟩
        · rw [String.toList_ofList]; exact hs
        · rw [String.toList_ofList]; exact hc
        · rw [← String.toList_ofList (l := leadingWord cs), h]; rfl
        · rw [← String.toList_ofList (l := leadingWord cs), h]; rfl

/-! ## Scans -/

theorem scan_skipped {skip : Nat} (hs : skip ≠ 0) (pos : Nat) (c : Char) (cs : List Char) :
    scan skip pos (c :: cs) = scan (skip - 1) (pos + 1) cs := by
  rw [scan, if_pos hs]

theorem scan_blank {c : Char} (hc : Text.isBlank c = true) (pos : Nat) (cs : List Char) :
    scan 0 pos (c :: cs) = scan 0 (pos + 1) cs := by
  rw [scan, if_neg (by simp), if_pos hc]

theorem scan_token {c : Char} (hc : Text.isBlank c = false) {cs text : List Char} {kind : Kind}
    (hl : leading? (c :: cs) = some (text, kind)) (pos : Nat) :
    scan 0 pos (c :: cs) = (scan (text.length - 1) (pos + 1) cs).map (⟨kind, String.ofList text, pos⟩ :: ·) := by
  rw [scan, if_neg (by simp), if_neg (by simp [hc]), hl]
  dsimp only
  split
  · rename_i ts hts; rw [hts]; rfl
  · rename_i e he; rw [he]; rfl

/-- The three things that may be at the head of a text that is read: a character that belongs to the
token in front of it, a blank, or a token. -/
theorem scan_cases {skip pos : Nat} {c : Char} {cs : List Char} {ts : List Token}
    (h : scan skip pos (c :: cs) = .ok ts) :
    (skip ≠ 0 ∧ scan (skip - 1) (pos + 1) cs = .ok ts) ∨
    (skip = 0 ∧ Text.isBlank c = true ∧ scan 0 (pos + 1) cs = .ok ts) ∨
    (skip = 0 ∧ Text.isBlank c = false ∧ ∃ text kind us, leading? (c :: cs) = some (text, kind) ∧
      scan (text.length - 1) (pos + 1) cs = .ok us ∧ ts = ⟨kind, String.ofList text, pos⟩ :: us) := by
  by_cases hs : skip = 0
  · subst hs
    cases hc : Text.isBlank c with
    | true => rw [scan_blank hc] at h; exact .inr (.inl ⟨rfl, rfl, h⟩)
    | false =>
      refine .inr (.inr ⟨rfl, rfl, ?_⟩)
      rcases hl : leading? (c :: cs) with _ | ⟨text, kind⟩
      · rw [scan, if_neg (by simp), if_neg (by simp [hc]), hl] at h; cases h
      · rw [scan_token hc hl] at h
        rcases hus : scan (text.length - 1) (pos + 1) cs with e | us
        · rw [hus] at h; cases h
        · rw [hus] at h; cases h; exact ⟨text, kind, us, rfl, hus, rfl⟩
  · rw [scan_skipped hs] at h
    exact .inl ⟨hs, h⟩

/-- A scan yields tokens and one end, and the identifiers among them are names. -/
theorem scan_shape : ∀ (cs : List Char) {skip pos : Nat} {ts : List Token}, scan skip pos cs = .ok ts →
    ∃ w, ts = w ++ [⟨.finish, "", (pos + cs.length : Nat)⟩] ∧
      ∀ t ∈ w, t.kind ≠ .finish ∧ (t.kind = .identifier → IsName t.text)
  | [], skip, pos, ts, h => by rw [scan] at h; cases h; exact ⟨[], rfl, by simp⟩
  | c :: cs, skip, pos, ts, h => by
    have hpos : pos + 1 + cs.length = pos + (c :: cs).length := by simp only [List.length_cons]; omega
    rcases scan_cases h with ⟨-, h⟩ | ⟨-, -, h⟩ | ⟨-, -, text, kind, us, hl, hus, rfl⟩
    · rw [← hpos]; exact scan_shape cs h
    · rw [← hpos]; exact scan_shape cs h
    · obtain ⟨w, rfl, hw⟩ := scan_shape cs hus
      refine ⟨⟨kind, String.ofList text, pos⟩ :: w, by rw [hpos]; rfl, fun t ht => ?_⟩
      rcases List.mem_cons.1 ht with rfl | ht
      · exact leading_kind hl
      · exact hw t ht

/-- A text that goes on behind a blank or a parenthesis is read as if it ended in front of it, and from
there on. -/
theorem scan_append {c : Char} (hc : separates c = true) (b : List Char) : ∀ (a : List Char) (skip pos : Nat),
    skip ≤ a.length → scan skip pos (a ++ c :: b) =
      match scan skip pos a with
      | .ok ts => (scan 0 (pos + a.length) (c :: b)).map (ts.dropLast ++ ·)
      | .error e => .error e
  | [], skip, pos, hs => by
    obtain rfl : skip = 0 := by simpa using hs
    simp only [List.nil_append, List.length_nil, Nat.add_zero, scan.eq_1, List.dropLast_singleton]
    cases scan 0 pos (c :: b) <;> rfl
  | x :: a, skip, pos, hs => by
    have hpos : pos + 1 + a.length = pos + (x :: a).length := by simp only [List.length_cons]; omega
    rw [List.cons_append, scan, scan]
    -- inside a token, on a blank, or at the head of a token, which both texts have in common
    split
    · rw [scan_append hc b a (skip - 1) (pos + 1) (by simp only [List.length_cons] at hs; omega), hpos]
    · split
      · rw [scan_append hc b a 0 (pos + 1) (Nat.zero_le _), hpos]
      · rw [leading_append hc]
        split
        · rfl
        · rename_i text kind hl
          have hlen : text.length - 1 ≤ a.length := by
            have := (leading_initial hl).1.length_le
            simp only [List.length_cons] at this; omega
          rw [scan_append hc b a (text.length - 1) (pos + 1) hlen, hpos]
          -- only the end of the first scan goes, and there is always one behind the token
          rcases ha : scan (text.length - 1) (pos + 1) a with e | ts
          · rfl
          · obtain ⟨w, rfl, -⟩ := scan_shape a ha
            rcases scan 0 (pos + (x :: a).length) (c :: b) with e | us
            · rfl
            · simp only [Except.map]
              rw [List.dropLast_cons_of_ne_nil (by simp), List.dropLast_concat]; rfl

theorem scan_word : ∀ (cs : List Char) {skip pos : Nat} {ts : List Token} (q : Nat), scan skip pos cs = .ok ts →
    ∃ us, scan skip q cs = .ok us ∧ us.map word = ts.map word
  | [], skip, pos, ts, q, h => by
    rw [scan] at h; cases h; exact ⟨[⟨.finish, "", q⟩], by rw [scan], rfl⟩
  | c :: cs, skip, pos, ts, q, h => by
    rcases scan_cases h with ⟨hs, h⟩ | ⟨rfl, hc, h⟩ | ⟨rfl, hc, text, kind, vs, hl, hvs, rfl⟩
    · rw [scan_skipped hs]; exact scan_word cs (q + 1) h
    · rw [scan_blank hc]; exact scan_word cs (q + 1) h
    · obtain ⟨us, hus, hw⟩ := scan_word cs (q + 1) hvs
      refine ⟨⟨kind, String.ofList text, q⟩ :: us, by rw [scan_token hc hl, hus]; rfl, ?_⟩
      rw [List.map_cons, List.map_cons, hw]; rfl

theorem scan_skip : ∀ (cs : List Char) (skip pos : Nat), skip ≤ cs.length →
    scan skip pos cs = scan 0 (pos + skip) (cs.drop skip)
  | cs, 0, pos, _ => rfl
  | [], skip + 1, pos, hs => absurd hs (by simp)
  | c :: cs, skip + 1, pos, hs => by
    rw [scan_skipped (Nat.succ_ne_zero skip), Nat.succ_sub_one, List.drop_succ_cons,
      scan_skip cs skip (pos + 1) (by simpa using hs)]
    congr 1; omega

/-! ## The words of a text -/

/-- The characters are read as the words, and then the end. -/
def Lexes (cs : List Char) (w : List (Kind × String)) : Prop :=
  ∃ ts, scan 0 0 cs = .ok ts ∧ ts.map word = w ++ [(.finish, "")]

/-- In front of a blank or a parenthesis a text is read on its own. -/
theorem Lexes.append {a b : List Char} {c : Char} {u v : List (Kind × String)} (ha : Lexes a u)
    (hc : separates c = true) (hb : Lexes (c :: b) v) : Lexes (a ++ c :: b) (u ++ v) := by
  obtain ⟨ts, hts, hu⟩ := ha
  obtain ⟨us, hus, hv⟩ := hb
  obtain ⟨w, rfl, -⟩ := scan_shape a hts
  obtain ⟨us', hus', hv'⟩ := scan_word (c :: b) (0 + a.length) hus
  refine ⟨w ++ us', ?_, ?_⟩
  · rw [scan_append hc b a 0 0 (Nat.zero_le _), hts, hus']
    simp only [Except.map, List.dropLast_concat]
  · rw [List.map_append, List.map_singleton] at hu
    have hw := List.append_inj_left' hu rfl
    rw [List.map_append, hw, hv', hv, List.append_assoc]

theorem Lexes.blank {b : List Char} {c : Char} {v : List (Kind × String)} (hb : Lexes b v)
    (hc : Text.isBlank c = true) : Lexes (c :: b) v := by
  obtain ⟨ts, hts, hv⟩ := hb
  obtain ⟨us, hus, hv'⟩ := scan_word b 1 hts
  exact ⟨us, by rw [scan_blank hc]; exact hus, hv'.trans hv⟩

/-- A sign of one character that is no part of a longer one is read in front of every text. -/
theorem Lexes.sign {b : List Char} {v : List (Kind × String)} (hb : Lexes b v) {c : Char} {kind : Kind}
    (hc : Text.isBlank c = false) (hl : leading? (c :: b) = some ([c], kind)) :
    Lexes (c :: b) ((kind, String.singleton c) :: v) := by
  obtain ⟨ts, hts, hv⟩ := hb
  obtain ⟨us, hus, hv'⟩ := scan_word b 1 hts
  refine ⟨⟨kind, String.ofList [c], (0 : Nat)⟩ :: us, ?_, ?_⟩
  · rw [scan_token hc hl]
    show (scan 0 1 b).map _ = _
    rw [hus]; rfl
  · rw [List.map_cons, hv', hv]; rfl

theorem Lexes.leftParen {b : List Char} {v : List (Kind × String)} (hb : Lexes b v) :
    Lexes ('(' :: b) ((.leftParen, "(") :: v) := hb.sign rfl rfl

theorem Lexes.rightParen {b : List Char} {v : List (Kind × String)} (hb : Lexes b v) :
    Lexes (')' :: b) ((.rightParen, ")") :: v) := hb.sign rfl rfl

theorem Lexes.negation {b : List Char} {v : List (Kind × String)} (hb : Lexes b v) :
    Lexes ('~' :: b) ((.negation, "~") :: v) := hb.sign rfl rfl

theorem lexes_nil : Lexes [] [] := ⟨_, rfl, rfl⟩

theorem Lexes.group {a : List Char} {u : List (Kind × String)} (ha : Lexes a u) :
    Lexes ('(' :: (a ++ [')'])) ((.leftParen, "(") :: (u ++ [(.rightParen, ")")])) :=
  (ha.append rfl lexes_nil.rightParen).leftParen

theorem lexes_connective (op : Connective) : Lexes op.text.toList [(.operator op, op.text)] := by
  cases op <;> exact ⟨_, rfl, rfl⟩

/-- Two texts with a connective between them, and blanks around it. -/
theorem Lexes.connective {a b : List Char} {u v : List (Kind × String)} (ha : Lexes a u) (op : Connective)
    (hb : Lexes b v) : Lexes (a ++ ' ' :: (op.text.toList ++ ' ' :: b)) (u ++ (.operator op, op.text) :: v) :=
  ha.append rfl (((lexes_connective op).append rfl (hb.blank rfl)).blank rfl)

/-- No sign begins like a name. -/
theorem leading_of_starts {c : Char} (hc : startsIdentifier c = true) (cs : List Char) :
    leading? (c :: cs) =
      some (c :: cs.takeWhile continuesIdentifier, wordKind (c :: cs.takeWhile continuesIdentifier)) := by
  have hfind : spellings.find? (fun s => s.1.isPrefixOf (c :: cs)) = none := by
    rw [List.find?_eq_none]
    intro s hs hp
    have hhead : spellings.all (fun s => s.1.head?.any fun d => !startsIdentifier d) = true := by decide
    have hs' := List.all_eq_true.1 hhead s hs
    rcases s with ⟨_ | ⟨d, ds⟩, kind⟩
    · cases hs'
    · obtain ⟨rfl, -⟩ := List.cons_prefix_cons.1 (List.isPrefixOf_iff_prefix.1 hp)
      simp [hc] at hs'
  unfold leading?
  rw [hfind]
  simp only [leadingWord, if_pos hc]

theorem lexes_name {s : String} (hs : IsName s) : Lexes s.toList [(.identifier, s)] := by
  obtain ⟨c, hc, hstart⟩ := hs.starts
  obtain ⟨cs, hcs⟩ := List.head?_eq_some_iff.1 hc
  have hblank : Text.isBlank c = false := by
    rw [Bool.eq_false_iff]
    intro hb
    have := isBlank_bounds hb
    rw [startsIdentifier_iff] at hstart
    omega
  have hall : cs.takeWhile continuesIdentifier = cs :=
    List.takeWhile_eq_self_iff.2 fun d hd => hs.continues d (by rw [hcs]; exact List.mem_cons_of_mem c hd)
  have hkind : wordKind (c :: cs) = .identifier := by
    rw [← hcs]
    unfold wordKind
    rw [if_neg (fun h : s.toList = ['T'] => hs.notTrue (String.toList_inj.1 h)),
      if_neg (fun h : s.toList = ['F'] => hs.notFalse (String.toList_inj.1 h))]
  have hlead := leading_of_starts hstart cs
  rw [hall, hkind] at hlead
  refine ⟨[⟨.identifier, s, (0 : Nat)⟩, ⟨.finish, "", (1 + cs.length : Nat)⟩], ?_, rfl⟩
  rw [hcs, scan_token hblank hlead, List.length_cons, Nat.add_sub_cancel, scan_skip cs cs.length _ (Nat.le_refl _),
    List.drop_length, ← hcs, String.ofList_toList]
  rfl

end Token

end Deduction
