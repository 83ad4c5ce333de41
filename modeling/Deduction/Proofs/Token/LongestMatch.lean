/-
The lexer as longest match. What it takes at the head of a text is the longest spelling there
(`leading_iff`), so a scan is a row of blanks and longest spellings up to the end of the text or up to a
character that neither is a blank nor begins a spelling (`Scanned`). It reads every text that can be cut into
blanks and spellings in some way (`Segmented`): where the cut is another one, either a word goes on, and the
cut comes back to the lexer's at the end of the word, or "||" was cut in the middle, and what is left of it
is a spelling again.
-/
import Deduction.Proofs.Token.Lexer

namespace Deduction

namespace Token

/-! ## Spellings -/

/-- The characters spell a token of the kind: a sign, one of the two constant letters, or a name. -/
inductive Spells : List Char → Kind → Prop
  | sign {s : List Char × Kind} : s ∈ spellings → Spells s.1 s.2
  | trueLetter : Spells ['T'] (.constant true)
  | falseLetter : Spells ['F'] (.constant false)
  | name {x : String} : IsName x → Spells x.toList .identifier

/-- What begins with a letter or an underscore and goes on with letters, underscores and digits. -/
def IsWord : List Char → Prop
  | [] => False
  | c :: cs => startsIdentifier c = true ∧ ∀ d ∈ cs, continuesIdentifier d = true

theorem continues_of_starts {c : Char} (h : startsIdentifier c = true) : continuesIdentifier c = true := by
  simp [continuesIdentifier, h]

theorem not_separates_of_continues {c : Char} (h : continuesIdentifier c = true) : separates c = false := by
  rw [Bool.eq_false_iff]
  intro hsep
  simp [not_continues_of_separates hsep] at h

theorem not_blank_of_continues {c : Char} (h : continuesIdentifier c = true) : Text.isBlank c = false := by
  have hsep := not_separates_of_continues h
  simp only [separates, Bool.or_eq_false_iff] at hsep
  exact hsep.1

theorem IsWord.continues {cs : List Char} (h : IsWord cs) : ∀ c ∈ cs, continuesIdentifier c = true := by
  rcases cs with _ | ⟨c, cs⟩
  · exact h.elim
  · intro d hd
    rcases List.mem_cons.1 hd with rfl | hd
    · exact continues_of_starts h.1
    · exact h.2 d hd

/-- A sign begins with a character that is no blank and no part of a word. -/
theorem sign_head {s : List Char × Kind} (h : s ∈ spellings) :
    ∃ c cs, s.1 = c :: cs ∧ continuesIdentifier c = false ∧ Text.isBlank c = false := by
  have hall : spellings.all (fun s =>
      s.1.head?.any fun c => !continuesIdentifier c && !Text.isBlank c) = true := by decide
  have hs := List.all_eq_true.1 hall s h
  rcases s with ⟨_ | ⟨c, cs⟩, kind⟩
  · cases hs
  · simp only [List.head?_cons, Option.any_some, Bool.and_eq_true, Bool.not_eq_true'] at hs
    exact ⟨c, cs, rfl, hs⟩

/-- What spells a token is a sign of the table, or a word of the kind that its letters give it. -/
theorem spells_iff {cs : List Char} {kind : Kind} :
    Spells cs kind ↔ (cs, kind) ∈ spellings ∨ IsWord cs ∧ kind = wordKind cs := by
  constructor
  · rintro (hs | _ | _ | hx)
    · exact .inl hs
    · exact .inr ⟨⟨by decide, by simp⟩, by decide⟩
    · exact .inr ⟨⟨by decide, by simp⟩, by decide⟩
    · rename_i x
      obtain ⟨c, hc, hstart⟩ := hx.starts
      obtain ⟨cs, hcs⟩ := List.head?_eq_some_iff.1 hc
      refine .inr ⟨?_, ?_⟩
      · rw [hcs]
        exact ⟨hstart, fun d hd => hx.continues d (by rw [hcs]; exact List.mem_cons_of_mem c hd)⟩
      · unfold wordKind
        rw [if_neg (fun h : x.toList = ['T'] => hx.notTrue (String.toList_inj.1 h)),
          if_neg (fun h : x.toList = ['F'] => hx.notFalse (String.toList_inj.1 h))]
  · rintro (hs | ⟨hword, rfl⟩)
    · exact .sign hs
    · unfold wordKind
      split_ifs with hT hF
      · rw [hT]; exact .trueLetter
      · rw [hF]; exact .falseLetter
      · have hname : IsName (String.ofList cs) := by
          refine ⟨?_, ?_, fun h => hT ?_, fun h => hF ?_⟩
          · rw [String.toList_ofList]
            rcases cs with _ | ⟨c, cs⟩
            · exact hword.elim
            · exact ⟨c, rfl, hword.1⟩
          · rw [String.toList_ofList]
            exact hword.continues
          · rw [← String.toList_ofList (l := cs), h]; rfl
          · rw [← String.toList_ofList (l := cs), h]; rfl
        simpa using Spells.name hname

/-- A spelling has a character, which is no blank. -/
theorem Spells.head {cs : List Char} {kind : Kind} (h : Spells cs kind) :
    ∃ c rest, cs = c :: rest ∧ Text.isBlank c = false := by
  rcases spells_iff.1 h with hs | ⟨hword, -⟩
  · obtain ⟨c, rest, hcs, -, hblank⟩ := sign_head hs
    exact ⟨c, rest, hcs, hblank⟩
  · rcases cs with _ | ⟨c, rest⟩
    · exact hword.elim
    · exact ⟨c, rest, rfl, not_blank_of_continues (continues_of_starts hword.1)⟩

theorem Spells.ne_nil {cs : List Char} {kind : Kind} (h : Spells cs kind) : cs ≠ [] := by
  obtain ⟨c, rest, rfl, -⟩ := h.head
  simp

theorem not_isWord_of_sign {s : List Char × Kind} (h : s ∈ spellings) : ¬ IsWord s.1 := by
  obtain ⟨c, rest, hcs, hc, -⟩ := sign_head h
  intro hword
  rw [hcs] at hword
  simp [continues_of_starts hword.1] at hc

/-- A word and a sign begin differently. -/
theorem not_prefix_of_sign {s : List Char × Kind} (hs : s ∈ spellings) {w cs : List Char} (hw : IsWord w)
    (hsign : s.1 <+: cs) : ¬ w <+: cs := by
  intro hword
  obtain ⟨c, rest, hsc, hc, -⟩ := sign_head hs
  rw [hsc] at hsign
  rcases w with _ | ⟨d, w⟩
  · exact hw.elim
  · obtain ⟨r, rfl⟩ := hsign
    obtain ⟨rfl, -⟩ := List.cons_prefix_cons.1 hword
    simp [continues_of_starts hw.1] at hc

/-- The characters of a token decide its kind. -/
theorem Spells.kind_unique {cs : List Char} {k l : Kind} (hk : Spells cs k) (hl : Spells cs l) : k = l := by
  rcases spells_iff.1 hk with hk | ⟨hword, rfl⟩ <;> rcases spells_iff.1 hl with hl | ⟨hword', rfl⟩
  · have htable : ∀ s ∈ spellings, ∀ t ∈ spellings, s.1 = t.1 → s.2 = t.2 := by decide
    exact htable _ hk _ hl rfl
  · exact absurd hword' (not_isWord_of_sign hk)
  · exact absurd hword (not_isWord_of_sign hl)
  · rfl

/-! ## The longest spelling -/

/-- The text is the longest spelling at the head of the characters, and spells a token of the kind. -/
structure LongestAt (cs text : List Char) (kind : Kind) : Prop where
  spells : Spells text kind
  initial : text <+: cs
  longest : ∀ other k, Spells other k → other <+: cs → other.length ≤ text.length

theorem LongestAt.unique {cs s t : List Char} {k l : Kind} (hs : LongestAt cs s k) (ht : LongestAt cs t l) :
    s = t ∧ k = l := by
  have hst : s = t :=
    (List.prefix_of_prefix_length_le hs.initial ht.initial (ht.longest s k hs.spells hs.initial)).eq_of_length_le
      (hs.longest t l ht.spells ht.initial)
  subst hst
  exact ⟨rfl, hs.spells.kind_unique ht.spells⟩

/-- The longest spelling stays the longest where the text ends earlier, but not inside it. -/
theorem LongestAt.shorten {text rest rest' : List Char} {kind : Kind} (h : LongestAt (text ++ rest) text kind)
    (hr : rest' <+: rest) : LongestAt (text ++ rest') text kind where
  spells := h.spells
  initial := List.prefix_append text rest'
  longest := fun other k hother hinit =>
    h.longest other k hother (hinit.trans ((List.prefix_append_right_inj text).2 hr))

theorem prefix_takeWhile {p : Char → Bool} {a b : List Char} (h : a <+: b) (ha : ∀ c ∈ a, p c = true) :
    a <+: b.takeWhile p := by
  obtain ⟨r, rfl⟩ := h
  rw [List.takeWhile_append_of_pos ha]
  exact List.prefix_append _ _

/-- The table has the longer signs first, so the first one that fits is the longest. -/
theorem leading_longest {cs text : List Char} {kind : Kind} (h : leading? cs = some (text, kind)) :
    LongestAt cs text kind := by
  have hsorted : spellings.Pairwise (fun s t => t.1.length ≤ s.1.length) := by decide
  unfold leading? at h
  split at h
  · rename_i s hs
    cases h
    obtain ⟨hfits, before, behind, hsplit, hbefore⟩ := List.find?_eq_some_iff_append.1 hs
    have hmem : (text, kind) ∈ spellings := List.mem_of_find?_eq_some hs
    have hinit : text <+: cs := List.isPrefixOf_iff_prefix.1 hfits
    refine ⟨.sign hmem, hinit, fun other k hother hother' => ?_⟩
    rcases spells_iff.1 hother with hsign | ⟨hword, -⟩
    · rw [hsplit] at hsign hsorted
      rcases List.mem_append.1 hsign with hsign | hsign
      · have hno := hbefore _ hsign
        simp [List.isPrefixOf_iff_prefix.2 hother'] at hno
      · rcases List.mem_cons.1 hsign with heq | hsign
        · cases heq; exact Nat.le_refl _
        · exact List.rel_of_pairwise_cons (List.pairwise_append.1 hsorted).2.1 hsign
    · exact absurd hother' (not_prefix_of_sign hmem hword hinit)
  · rename_i hnone
    have hno : ∀ s ∈ spellings, ¬ s.1 <+: cs := by
      intro s hs hp
      exact absurd (List.isPrefixOf_iff_prefix.2 hp) (List.find?_eq_none.1 hnone s hs)
    split at h
    · cases h
    · rename_i hne
      cases h
      rcases cs with _ | ⟨c, cs⟩
      · exact absurd rfl hne
      · have hc : startsIdentifier c = true := by
          by_contra hc
          exact hne (by simp [leadingWord, hc])
        have htext : leadingWord (c :: cs) = c :: cs.takeWhile continuesIdentifier := by
          simp [leadingWord, hc]
        rw [htext]
        have hword : IsWord (c :: cs.takeWhile continuesIdentifier) :=
          ⟨hc, fun d hd => List.mem_takeWhile_imp hd⟩
        refine ⟨spells_iff.2 (.inr ⟨hword, rfl⟩), List.cons_prefix_cons.2 ⟨rfl, List.takeWhile_prefix _⟩,
          fun other k hother hinit => ?_⟩
        rcases spells_iff.1 hother with hsign | ⟨hother, -⟩
        · exact absurd hinit (hno _ hsign)
        · rcases other with _ | ⟨d, other⟩
          · exact hother.elim
          · obtain ⟨rfl, htail⟩ := List.cons_prefix_cons.1 hinit
            have hlen := (prefix_takeWhile htail hother.2).length_le
            simp only [List.length_cons]
            omega

/-- Where no spelling is taken, none begins. -/
theorem not_prefix_of_leading_none {cs : List Char} (h : leading? cs = none) {text : List Char} {kind : Kind}
    (hs : Spells text kind) : ¬ text <+: cs := by
  intro hinit
  unfold leading? at h
  split at h
  · cases h
  · rename_i hnone
    split at h
    · rename_i hword
      rcases spells_iff.1 hs with hsign | ⟨htext, -⟩
      · exact absurd (List.isPrefixOf_iff_prefix.2 hinit) (List.find?_eq_none.1 hnone _ hsign)
      · rcases text with _ | ⟨c, text⟩
        · exact htext.elim
        · obtain ⟨r, rfl⟩ := hinit
          simp [leadingWord, htext.1] at hword
    · cases h

/-- What is taken at the head of a text is the longest spelling there. -/
theorem leading_iff {cs text : List Char} {kind : Kind} :
    leading? cs = some (text, kind) ↔ LongestAt cs text kind := by
  refine ⟨leading_longest, fun h => ?_⟩
  rcases hl : leading? cs with _ | ⟨other, k⟩
  · exact absurd h.initial (not_prefix_of_leading_none hl h.spells)
  · obtain ⟨rfl, rfl⟩ := h.unique (leading_longest hl)
    rfl

/-- A sign that another one begins with is that one, unless the two are the single and the double bar. -/
theorem sign_prefix {s t : List Char × Kind} (hs : s ∈ spellings) (ht : t ∈ spellings) (h : s.1 <+: t.1) :
    s.1 = t.1 ∨ s.1 = ['|'] ∧ t.1 = ['|', '|'] := by
  have htable : ∀ s ∈ spellings, ∀ t ∈ spellings, s.1 <+: t.1 →
      s.1 = t.1 ∨ s.1 = ['|'] ∧ t.1 = ['|', '|'] := by decide
  exact htable s hs t ht h

/-- A word is the longest spelling in front of a character that no word goes on with. -/
theorem longestAt_word {w rest : List Char} (hw : IsWord w)
    (hrest : ∀ c ∈ rest.head?, continuesIdentifier c = false) : LongestAt (w ++ rest) w (wordKind w) := by
  rcases w with _ | ⟨c, w⟩
  · exact hw.elim
  · have hstop : rest.takeWhile continuesIdentifier = [] := by
      rcases rest with _ | ⟨d, rest⟩
      · rfl
      · exact List.takeWhile_cons_of_neg (by simp [hrest d rfl])
    have hlead := leading_of_starts hw.1 (w ++ rest)
    rw [List.takeWhile_append_of_pos hw.2, hstop, List.append_nil] at hlead
    exact leading_longest hlead

/-- A sign is the longest spelling wherever it stands, but for a bar in front of another bar. -/
theorem longestAt_sign {s : List Char × Kind} (hs : s ∈ spellings) {rest : List Char}
    (hbar : s.1 = ['|'] → ∀ c ∈ rest.head?, c ≠ '|') : LongestAt (s.1 ++ rest) s.1 s.2 where
  spells := .sign hs
  initial := List.prefix_append _ _
  longest := by
    intro other k hother hinit
    rcases spells_iff.1 hother with hsign | ⟨hword, -⟩
    · by_contra hlt
      have hfirst : s.1 <+: other :=
        List.prefix_of_prefix_length_le (List.prefix_append _ _) hinit (Nat.le_of_not_le hlt)
      rcases sign_prefix hs hsign hfirst with heq | ⟨hone, htwo⟩
      · exact hlt (by rw [heq])
      · dsimp only at htwo
        rw [hone, htwo] at hinit
        obtain ⟨r, hr⟩ := hinit
        have hrest : rest = '|' :: r := (List.cons.inj hr).2.symm
        exact hbar hone '|' (by rw [hrest]; rfl) rfl
    · exact absurd hinit (not_prefix_of_sign hs hword (List.prefix_append _ _))

/-! ## Scans, piece by piece -/

/-- The longest spelling at the head of a text is read as a token, and the scan goes on behind it. -/
theorem scan_longest {text rest : List Char} {kind : Kind} (h : LongestAt (text ++ rest) text kind) (pos : Nat) :
    scan 0 pos (text ++ rest) =
      (scan 0 (pos + text.length) rest).map (⟨kind, String.ofList text, pos⟩ :: ·) := by
  obtain ⟨c, tail, rfl, hc⟩ := h.spells.head
  have hpos : pos + 1 + tail.length = pos + (c :: tail).length := by simp only [List.length_cons]; omega
  rw [List.cons_append] at h ⊢
  -- the characters of the token behind its first one are passed over
  rw [scan_token hc (leading_iff.2 h), List.length_cons, Nat.add_sub_cancel,
    scan_skip (tail ++ rest) tail.length (pos + 1) (by simp), List.drop_left, hpos, List.length_cons]

/-- The scan of a text from a place, and what it yields: the text ends, goes on behind a blank or behind the
longest spelling at its head, or stops the scan. -/
inductive Scanned : Nat → List Char → Except FormulaError (List Token) → Prop
  | done {pos : Nat} : Scanned pos [] (.ok [⟨.finish, "", pos⟩])
  | blank {pos : Nat} {c : Char} {cs : List Char} {r : Except FormulaError (List Token)} :
      Text.isBlank c = true → Scanned (pos + 1) cs r → Scanned pos (c :: cs) r
  | token {pos : Nat} {text rest : List Char} {kind : Kind} {r : Except FormulaError (List Token)} :
      LongestAt (text ++ rest) text kind → Scanned (pos + text.length) rest r →
      Scanned pos (text ++ rest) (r.map (⟨kind, String.ofList text, pos⟩ :: ·))
  | stuck {pos : Nat} {c : Char} {cs : List Char} : Text.isBlank c = false →
      (∀ text kind, Spells text kind → ¬ text <+: c :: cs) →
      Scanned pos (c :: cs) (.error (.unexpectedCharacter c pos))

theorem scanned (pos : Nat) (cs : List Char) : Scanned pos cs (scan 0 pos cs) := by
  match cs with
  | [] => rw [scan]; exact .done
  | c :: cs =>
    cases hc : Text.isBlank c with
    | true =>
      rw [scan_blank hc]
      exact .blank hc (scanned (pos + 1) cs)
    | false =>
      rcases hl : leading? (c :: cs) with _ | ⟨text, kind⟩
      · have hscan : scan 0 pos (c :: cs) = .error (.unexpectedCharacter c pos) := by
          rw [scan, if_neg (by simp), if_neg (by simp [hc]), hl]
        rw [hscan]
        exact .stuck hc fun text kind hs => not_prefix_of_leading_none hl hs
      · have hlong := leading_longest hl
        obtain ⟨rest, hrest⟩ := hlong.initial
        have hshorter : rest.length ≤ cs.length := by
          have hne := List.length_pos_iff.2 hlong.spells.ne_nil
          have hlen := congrArg List.length hrest
          rw [List.length_append, List.length_cons] at hlen
          omega
        rw [← hrest] at hlong ⊢
        rw [scan_longest hlong]
        exact .token hlong (scanned (pos + text.length) rest)
termination_by cs.length

/-! ## What a scan yields -/

/-- The place behind the last character of a token. -/
def stop (t : Token) : Int :=
  t.position + t.text.length

/-- The tokens stand in the text, which begins at `pos`, one behind the other. Each is the longest spelling at
its place, and whatever belongs to none is blank. -/
structure Covers (cs : List Char) (pos : Nat) (w : List Token) : Prop where
  ordered : w.Pairwise fun t u => t.position < u.position ∧ t.stop ≤ u.position
  longest : ∀ t ∈ w, ∃ n : Nat, t.position = pos + n ∧ LongestAt (cs.drop n) t.text.toList t.kind
  gaps : ∀ (n : Nat) (c : Char), cs[n]? = some c → Text.isBlank c = true ∨
    ∃ t ∈ w, t.position ≤ pos + n ∧ pos + n < t.stop

namespace Covers

variable {cs : List Char} {pos : Nat} {w : List Token}

theorem blank {c : Char} (h : Covers cs (pos + 1) w) (hc : Text.isBlank c = true) : Covers (c :: cs) pos w where
  ordered := h.ordered
  longest := by
    intro t ht
    obtain ⟨n, hpos, hlong⟩ := h.longest t ht
    exact ⟨n + 1, by rw [hpos]; push_cast; omega, hlong⟩
  gaps := by
    rintro (_ | n) d hd
    · cases hd
      exact .inl hc
    · rcases h.gaps n d hd with hblank | ⟨t, ht, hfrom, hto⟩
      · exact .inl hblank
      · push_cast at hfrom hto ⊢
        exact .inr ⟨t, ht, by omega, by omega⟩

theorem token {text rest : List Char} {kind : Kind} (h : Covers rest (pos + text.length) w)
    (hlong : LongestAt (text ++ rest) text kind) :
    Covers (text ++ rest) pos (⟨kind, String.ofList text, pos⟩ :: w) where
  ordered := by
    refine List.pairwise_cons.2 ⟨fun u hu => ?_, h.ordered⟩
    obtain ⟨n, hpos, -⟩ := h.longest u hu
    have hne := List.length_pos_iff.2 hlong.spells.ne_nil
    simp only [stop, String.length_ofList, hpos]
    push_cast
    omega
  longest := by
    intro t ht
    rcases List.mem_cons.1 ht with rfl | ht
    · exact ⟨0, by simp, by simpa using hlong⟩
    · obtain ⟨n, hpos, hlong'⟩ := h.longest t ht
      refine ⟨text.length + n, by rw [hpos]; push_cast; omega, ?_⟩
      rwa [List.drop_length_add_append]
  gaps := by
    intro n c hc
    by_cases hn : n < text.length
    · refine .inr ⟨_, List.mem_cons_self, ?_, ?_⟩
      · dsimp only; omega
      · simp only [stop, String.length_ofList]; omega
    · rw [List.getElem?_append_right (by omega)] at hc
      rcases h.gaps (n - text.length) c hc with hblank | ⟨t, ht, hfrom, hto⟩
      · exact .inl hblank
      · push_cast at hfrom hto
        exact .inr ⟨t, List.mem_cons_of_mem _ ht, by omega, by omega⟩

end Covers

theorem Spells.kind_ne_finish {cs : List Char} {kind : Kind} (h : Spells cs kind) : kind ≠ .finish := by
  rcases h with hs | _ | _ | _
  · have htable : ∀ s ∈ spellings, s.2 ≠ .finish := by decide
    exact htable _ hs
  all_goals simp

namespace Scanned

variable {pos : Nat} {cs : List Char} {r : Except FormulaError (List Token)}

/-- A scan that comes to the end yields tokens that cover the text, and one end behind it. -/
theorem covers (h : Scanned pos cs r) {ts : List Token} (hr : r = .ok ts) :
    ∃ w, ts = w ++ [⟨.finish, "", (pos + cs.length : Nat)⟩] ∧ Covers cs pos w := by
  induction h generalizing ts with
  | done =>
    cases hr
    exact ⟨[], rfl, by simp, by simp, by simp⟩
  | @blank pos c cs r hc _ ih =>
    obtain ⟨w, rfl, hw⟩ := ih hr
    refine ⟨w, ?_, hw.blank hc⟩
    rw [List.length_cons, Nat.add_assoc, Nat.add_comm 1]
  | @token pos text rest kind r hlong _ ih =>
    rcases r with e | us
    · cases hr
    · cases hr
      obtain ⟨w, rfl, hw⟩ := ih rfl
      refine ⟨_, ?_, hw.token hlong⟩
      rw [List.length_append, ← Nat.add_assoc]
      rfl
  | stuck => cases hr

/-- A scan that is stopped has read the text in front of the character that stops it, where no spelling
begins. -/
theorem stops (h : Scanned pos cs r) {e : FormulaError} (hr : r = .error e) :
    ∃ n c, e = .unexpectedCharacter c (pos + n) ∧ cs[n]? = some c ∧ Text.isBlank c = false ∧
      (∃ ts, scan 0 pos (cs.take n) = .ok ts) ∧ ∀ text kind, Spells text kind → ¬ text <+: cs.drop n := by
  induction h generalizing e with
  | done => cases hr
  | @blank pos c cs r hc _ ih =>
    obtain ⟨n, d, rfl, hd, hblank, ⟨ts, hts⟩, hno⟩ := ih hr
    refine ⟨n + 1, d, by rw [Nat.add_assoc, Nat.add_comm 1], hd, hblank, ⟨ts, ?_⟩, hno⟩
    rw [List.take_succ_cons, scan_blank hc]
    exact hts
  | @token pos text rest kind r hlong _ ih =>
    rcases r with e' | us
    · cases hr
      obtain ⟨n, d, rfl, hd, hblank, ⟨ts, hts⟩, hno⟩ := ih rfl
      refine ⟨text.length + n, d, by rw [Nat.add_assoc], ?_, hblank, ⟨⟨kind, String.ofList text, pos⟩ :: ts, ?_⟩,
        ?_⟩
      · rw [List.getElem?_append_right (by omega), Nat.add_sub_cancel_left]
        exact hd
      -- cutting the text behind a token leaves the token the longest spelling at its place
      · rw [List.take_length_add_append, scan_longest (hlong.shorten (List.take_prefix n rest)), hts]
        rfl
      · rw [List.drop_length_add_append]
        exact hno
    · cases hr
  | @stuck pos c cs hc hno =>
    cases hr
    exact ⟨0, c, rfl, rfl, hc, ⟨_, by rw [List.take_zero, scan]⟩, hno⟩

end Scanned

/-! ## Texts that can be cut into spellings -/

/-- The characters are a row of blanks and spellings. -/
inductive Segmented : List Char → Prop
  | nil : Segmented []
  | blank {c : Char} {cs : List Char} : Text.isBlank c = true → Segmented cs → Segmented (c :: cs)
  | token {text rest : List Char} {kind : Kind} : Spells text kind → Segmented rest → Segmented (text ++ rest)

theorem Scanned.segmented {pos : Nat} {cs : List Char} {r : Except FormulaError (List Token)}
    (h : Scanned pos cs r) {ts : List Token} (hr : r = .ok ts) : Segmented cs := by
  induction h generalizing ts with
  | done => exact .nil
  | blank hc _ ih => exact .blank hc (ih hr)
  | @token pos text rest kind r hlong _ ih =>
    rcases r with e | us
    · cases hr
    · exact .token hlong.spells (ih rfl)
  | stuck => cases hr

/-- Behind the longest word at the head, a text can be cut as well: every cut comes to the end of the word,
since nothing but a word begins inside of it. -/
theorem Segmented.dropWhile {cs : List Char} (h : Segmented cs) : Segmented (cs.dropWhile continuesIdentifier) := by
  induction h with
  | nil => exact .nil
  | @blank c cs hc hcs _ =>
    have hno : continuesIdentifier c = false := not_continues_of_separates (by simp [separates, hc])
    rw [List.dropWhile_cons_of_neg (by simp [hno])]
    exact .blank hc hcs
  | @token text rest kind hs hrest ih =>
    rcases spells_iff.1 hs with hsign | ⟨hword, -⟩
    · obtain ⟨c, tail, htext, hno, -⟩ := sign_head hsign
      dsimp only at htext
      subst htext
      rw [List.cons_append, List.dropWhile_cons_of_neg (by simp [hno])]
      exact .token hs hrest
    · rw [List.dropWhile_append_of_pos hword.continues]
      exact ih

/-- Behind a bar a text can be cut as well: a second bar is a spelling of its own. -/
theorem Segmented.behind_bar {rest : List Char} (h : Segmented ('|' :: rest)) : Segmented rest := by
  generalize hcs : '|' :: rest = cs at h
  cases h with
  | nil => cases hcs
  | blank hc _ =>
    obtain ⟨rfl, -⟩ := List.cons.inj hcs
    exact absurd hc (by decide)
  | @token text tail kind hs htail =>
    rcases spells_iff.1 hs with hsign | ⟨hword, -⟩
    · have htable : ∀ s ∈ spellings, s.1.head? = some '|' → s.1 = ['|'] ∨ s.1 = ['|', '|'] := by decide
      obtain ⟨c, text, htext, -⟩ := sign_head hsign
      dsimp only at htext
      subst htext
      obtain ⟨rfl, rfl⟩ := List.cons.inj hcs
      rcases htable _ hsign rfl with hone | htwo
      · cases hone
        exact htail
      · cases htwo
        exact .token (.sign (s := (['|'], .operator .or)) (by decide)) htail
    · rcases text with _ | ⟨c, text⟩
      · exact hword.elim
      · obtain ⟨rfl, -⟩ := List.cons.inj hcs
        exact absurd hword.1 (by decide)

/-- Behind the longest spelling at its head, a text can be cut as well. -/
theorem Segmented.behind_longest {text rest : List Char} {kind : Kind} (h : Segmented (text ++ rest))
    (hlong : LongestAt (text ++ rest) text kind) : Segmented rest := by
  rcases spells_iff.1 hlong.spells with hsign | ⟨hword, -⟩
  · generalize hcs : text ++ rest = cs at h
    obtain ⟨c, tail, htext, -, hblank⟩ := sign_head hsign
    dsimp only at htext
    cases h with
    | nil => simp [htext] at hcs
    | blank hb _ =>
      rw [htext] at hcs
      obtain ⟨rfl, -⟩ := List.cons.inj hcs
      simp [hblank] at hb
    | @token other rest' k hs hrest' =>
      -- the cut begins with a sign that is a part of the longest one
      have hinit : other <+: text := by
        have hother : other <+: text ++ rest := ⟨rest', hcs.symm⟩
        exact List.prefix_of_prefix_length_le hother hlong.initial (hlong.longest other k hs hother)
      have hsign' : (other, k) ∈ spellings := by
        rcases spells_iff.1 hs with hsign' | ⟨hword, -⟩
        · exact hsign'
        · exact absurd hinit (not_prefix_of_sign hsign hword (List.prefix_refl text))
      rcases sign_prefix hsign' hsign hinit with heq | ⟨hone, htwo⟩
      · dsimp only at heq
        subst heq
        rw [List.append_cancel_left hcs]
        exact hrest'
      · dsimp only at hone htwo
        subst hone htwo
        have hbar : '|' :: rest = rest' := List.cons.inj hcs |>.2
        rw [← hbar] at hrest'
        exact hrest'.behind_bar
  · -- the longest word goes as far as words go
    rcases text with _ | ⟨c, tail⟩
    · exact hword.elim
    · have hlead := leading_longest (leading_of_starts hword.1 (tail ++ rest))
      have htail : tail = (tail ++ rest).takeWhile continuesIdentifier :=
        (List.cons.inj (hlong.unique hlead).1).2
      have hrest : (c :: tail ++ rest).dropWhile continuesIdentifier = rest := by
        rw [List.cons_append, List.dropWhile_cons_of_pos (continues_of_starts hword.1)]
        have happ := List.takeWhile_append_dropWhile (p := continuesIdentifier) (l := tail ++ rest)
        rw [← htail] at happ
        exact List.append_cancel_left happ
      rw [← hrest]
      exact h.dropWhile

/-- A text that can be cut into blanks and spellings is read to its end. -/
theorem Scanned.of_segmented {pos : Nat} {cs : List Char} {r : Except FormulaError (List Token)}
    (h : Scanned pos cs r) (hs : Segmented cs) : ∃ ts, r = .ok ts := by
  induction h with
  | done => exact ⟨_, rfl⟩
  | @blank pos c cs r hc _ ih =>
    refine ih ?_
    generalize hcs : c :: cs = ds at hs
    cases hs with
    | nil => cases hcs
    | blank _ hs =>
      obtain ⟨-, rfl⟩ := List.cons.inj hcs
      exact hs
    | @token text rest kind hspells _ =>
      obtain ⟨d, tail, rfl, hd⟩ := hspells.head
      obtain ⟨rfl, -⟩ := List.cons.inj hcs
      simp [hc] at hd
  | token hlong _ ih =>
    obtain ⟨ts, rfl⟩ := ih (hs.behind_longest hlong)
    exact ⟨_, rfl⟩
  | @stuck pos c cs hc hno =>
    generalize hcs : c :: cs = ds at hs
    cases hs with
    | nil => cases hcs
    | blank hb _ =>
      obtain ⟨rfl, -⟩ := List.cons.inj hcs
      simp [hc] at hb
    | token hspells _ => exact absurd ⟨_, hcs.symm⟩ (hno _ _ hspells)

end Token

open Token

/-- A text is read exactly when it is a row of blanks and spellings in some way. Its tokens then are the longest
spellings at their places, one behind the other with nothing but blanks around them, and one end stands behind
the text. A text that is not read has a character that is no blank and at which no spelling begins, which the
error names with its place, and the text in front of it is read. -/
theorem tokenize_longestMatch (text : String) :
    ((∃ ts, tokenize text = .ok ts) ↔ Segmented text.toList) ∧
    (∀ ts, tokenize text = .ok ts → ∃ w, ts = w ++ [⟨.finish, "", (text.length : Nat)⟩] ∧
      (∀ t ∈ w, t.kind ≠ .finish) ∧ Covers text.toList 0 w) ∧
    (∀ e, tokenize text = .error e → ∃ i c, e = .unexpectedCharacter c i ∧ text.toList[i]? = some c ∧
      Text.isBlank c = false ∧ (∃ ts, tokenize (String.ofList (text.toList.take i)) = .ok ts) ∧
      ∀ s kind, Spells s kind → ¬ s <+: text.toList.drop i) := by
  have hscan : Scanned 0 text.toList (tokenize text) := scanned 0 text.toList
  refine ⟨⟨fun ⟨ts, hts⟩ => hscan.segmented hts, hscan.of_segmented⟩, fun ts hts => ?_, fun e he => ?_⟩
  · obtain ⟨w, rfl, hw⟩ := hscan.covers hts
    refine ⟨w, by rw [Nat.zero_add, String.length_toList], fun t ht => ?_, hw⟩
    obtain ⟨n, -, hlong⟩ := hw.longest t ht
    exact hlong.spells.kind_ne_finish
  · obtain ⟨i, c, rfl, hc, hblank, ⟨ts, hts⟩, hno⟩ := hscan.stops he
    refine ⟨i, c, by rw [Nat.zero_add], hc, hblank, ⟨ts, ?_⟩, hno⟩
    rw [tokenize, String.toList_ofList]
    exact hts

/-- Three bars that are cut behind the first one are read, though the lexer cuts them behind the second. -/
theorem tokenize_longestMatch_bars :
    Segmented "p|||q".toList ∧ ∃ ts, tokenize "p|||q" = .ok ts := by
  have hp : IsName "p" := ⟨⟨'p', rfl, rfl⟩, List.forall_mem_singleton.2 rfl, by decide, by decide⟩
  have hq : IsName "q" := ⟨⟨'q', rfl, rfl⟩, List.forall_mem_singleton.2 rfl, by decide, by decide⟩
  have hcut : Segmented "p|||q".toList :=
    .token (.name hp) (.token (.sign (s := (['|'], .operator .or)) (by decide))
      (.token (.sign (s := (['|', '|'], .operator .or)) (by decide)) (.token (.name hq) .nil)))
  exact ⟨hcut, (tokenize_longestMatch "p|||q").1.2 hcut⟩

end Deduction
