/-
A cursor that is called again and again, also behind a call that raised and at any depth. It never goes back and
never past the first end (`follows_call`), and it does not see what is behind that (`shortened_answers`). A routine
that returns has taken a token and left the depth as it was, and one that raises leaves no fewer levels open than
there were (`Descends.keeps`). So it is after any calls, and whatever routine is called next ends (`orderly_after`).
-/
import Deduction.Proofs.Formula.Descent

namespace Deduction

open Deduction.Parser

namespace Cursor

/-! ## Forward, and no further than an end -/

/-- Between the first cursor and the second there are tokens none of which is an end. -/
def Follows (c c' : Cursor) : Prop :=
  ∃ skipped, c.ahead = skipped ++ c'.ahead ∧ c'.pos = c.pos + skipped.length ∧ ∀ t ∈ skipped, t.kind ≠ .finish

namespace Follows

variable {c c' c'' : Cursor}

theorem of_eq (hahead : c'.ahead = c.ahead) (hpos : c'.pos = c.pos) : c.Follows c' :=
  ⟨[], hahead.symm, hpos, by simp⟩

theorem refl (c : Cursor) : c.Follows c :=
  of_eq rfl rfl

theorem trans (h : c.Follows c') (h' : c'.Follows c'') : c.Follows c'' := by
  obtain ⟨u, hu, hupos, huends⟩ := h
  obtain ⟨v, hv, hvpos, hvends⟩ := h'
  refine ⟨u ++ v, by rw [hu, hv, List.append_assoc], by rw [hvpos, hupos, List.length_append, Nat.add_assoc], ?_⟩
  intro t ht
  rcases List.mem_append.1 ht with ht | ht
  · exact huends t ht
  · exact hvends t ht

theorem pos_le (h : c.Follows c') : c.pos ≤ c'.pos := by
  obtain ⟨u, -, hpos, -⟩ := h
  omega

end Follows

theorem advance_pos {c : Cursor} (h : c.peek.kind ≠ .finish) : c.advance.pos = c.pos + 1 := by
  unfold advance
  rw [if_neg h]

@[simp] theorem advance_depth (c : Cursor) : c.advance.depth = c.depth := by
  unfold advance
  split <;> rfl

theorem follows_advance (c : Cursor) : c.Follows c.advance := by
  by_cases h : c.peek.kind = .finish
  · unfold advance
    rw [if_pos h]
    exact .refl c
  · obtain ⟨t, rest, hahead, rfl, hadvance⟩ := ahead_of_kind rfl h
    rw [hadvance]
    exact ⟨[c.peek], hahead, rfl, by simpa using h⟩

theorem follows_accept (c : Cursor) (kind : Token.Kind) : c.Follows (c.accept kind).2 := by
  unfold accept
  split
  · exact c.follows_advance
  · exact .refl c

theorem follows_leave (c : Cursor) : c.Follows c.leave :=
  .of_eq rfl rfl

theorem follows_enter (c : Cursor) : c.Follows c.enter.2 := by
  rw [enter_eq]
  exact .of_eq rfl rfl

end Cursor

/-! ## What a routine keeps -/

namespace Parser

/-- The levels of nesting that a routine leaves open where it returns. -/
def Routine.opened : Routine → Int
  | .within _ => 1
  | _ => 0

/-- The tokens that a routine takes at least where it returns. -/
def Routine.taken : Routine → Nat
  | .more _ _ => 0
  | _ => 1

/-- A routine goes forward. It leaves the depth as it was where it returns, apart from the level that it opens, and
no smaller where it raises. -/
structure Keeps (r : Routine) (c : Cursor) (out : Outcome) : Prop where
  follows : c.Follows out.2
  returns : ∀ f, out.1 = .ok f → c.pos + r.taken ≤ out.2.pos ∧ out.2.depth = c.depth + r.opened
  raises : ∀ e, out.1 = .error e → c.depth ≤ out.2.depth

namespace Keeps

variable {r : Routine} {c : Cursor} {out : Outcome}

/-- Rows of all levels keep the same. -/
theorem at_level {k : Level} (h : Keeps (.row k) c out) (l : Level) : Keeps (.row l) c out :=
  ⟨h.follows, h.returns, h.raises⟩

/-- A token that is a formula of its own. -/
theorem of_advance {f : Formula} (hc : c.peek.kind ≠ .finish) : Keeps (.row .atom) c (.ok f, c.advance) where
  follows := c.follows_advance
  returns _ _ := ⟨Nat.le_of_eq (Cursor.advance_pos hc).symm, by simp [Routine.opened]⟩
  raises _ h := by cases h

/-- What is read behind a token, in a level that is closed again. -/
theorem leaving {l : Level} (hopened : r.opened = 0) (htaken : r.taken ≤ 1) (hc : c.peek.kind ≠ .finish)
    (h : Keeps (.within l) c.advance out) (g : Formula → Formula) : Keeps r c (leaving g out) := by
  have hpos := Cursor.advance_pos hc
  have hfollows := c.follows_advance.trans h.follows
  obtain ⟨e | f, c'⟩ := out
  · exact ⟨hfollows, fun _ hok => (by cases hok), fun _ _ => c.advance_depth ▸ h.raises e rfl⟩
  · obtain ⟨hforward, hdepth⟩ := h.returns f rfl
    rw [Cursor.advance_depth] at hdepth
    refine ⟨hfollows.trans c'.follows_leave, fun _ _ => ⟨?_, ?_⟩, fun _ herror => (by cases herror)⟩
    · show c.pos + r.taken ≤ c'.pos
      simp only at hforward
      omega
    · show c'.depth - 1 = c.depth + r.opened
      simp only [Routine.opened] at hdepth
      omega

theorem closing (hc : c.peek.kind ≠ .finish) (h : Keeps (.within .iff) c.advance out) :
    Keeps (.row .atom) c (closing out) := by
  have hpos := Cursor.advance_pos hc
  have hfollows := c.follows_advance.trans h.follows
  obtain ⟨e | f, c'⟩ := out
  · exact ⟨hfollows, fun _ hok => (by cases hok), fun _ _ => c.advance_depth ▸ h.raises e rfl⟩
  · obtain ⟨hforward, hdepth⟩ := h.returns f rfl
    rw [Cursor.advance_depth] at hdepth
    simp only [Routine.opened, Routine.taken] at hforward hdepth
    by_cases hclose : c'.peek.kind = .rightParen
    · have hpos' : c'.advance.pos = c'.pos + 1 := Cursor.advance_pos (by rw [hclose]; simp)
      rw [Parser.closing, if_pos hclose]
      refine ⟨hfollows.trans (c'.follows_advance.trans c'.advance.follows_leave), fun _ _ => ⟨?_, ?_⟩,
        fun _ herror => (by cases herror)⟩
      · show c.pos + 1 ≤ c'.advance.pos
        omega
      · show c'.advance.depth - 1 = c.depth + 0
        rw [Cursor.advance_depth]
        omega
    · rw [Parser.closing, if_neg hclose]
      exact ⟨hfollows, fun _ hok => (by cases hok), fun _ _ => (by dsimp only; omega)⟩

theorem ended {l : Level} (h : Keeps (.row l) c out) : Keeps .whole c (ended out) := by
  obtain ⟨e | f, c'⟩ := out
  · exact ⟨h.follows, h.returns, h.raises⟩
  · by_cases hend : c'.peek.kind = .finish
    · rw [Parser.ended, if_pos hend]
      exact ⟨h.follows, h.returns, h.raises⟩
    · rw [Parser.ended, if_neg hend]
      refine ⟨h.follows, fun _ hok => (by cases hok), fun _ _ => ?_⟩
      have hdepth : c'.depth = c.depth + 0 := (h.returns f rfl).2
      dsimp only
      omega

/-- A chain goes on behind an operand if that is read. -/
theorem chain {l : Level} {op : Connective} {left : Except FormulaError Formula} {first : Outcome}
    (hleft : ∀ e, first.1 = .error e → left = .error e) (hmore : Descends (.more op left) first.2 out)
    (hfirst : Keeps (.row l) c first) (h : Keeps (.more op left) first.2 out) : Keeps (.row l) c out := by
  obtain ⟨e | f, c'⟩ := first
  · cases hleft e rfl
    cases hmore
    exact ⟨hfirst.follows, fun _ hok => (by cases hok), hfirst.raises⟩
  · obtain ⟨hforward, hdepth⟩ := hfirst.returns f rfl
    simp only [Routine.opened, Routine.taken, Int.add_zero] at hforward hdepth
    refine ⟨hfirst.follows.trans h.follows, fun g hg => ⟨?_, ?_⟩, fun e he => hdepth ▸ h.raises e he⟩
    · exact Nat.le_trans hforward h.follows.pos_le
    · rw [(h.returns g hg).2, hdepth]
      rfl

theorem more {l : Level} (h : Keeps (.row l) c.advance out) (op : Connective)
    (left : Except FormulaError Formula) : Keeps (.more op left) c out := by
  refine ⟨c.follows_advance.trans h.follows, fun f hf => ⟨?_, ?_⟩, fun e he => c.advance_depth ▸ h.raises e he⟩
  · exact (c.follows_advance.trans h.follows).pos_le
  · rw [(h.returns f hf).2, Cursor.advance_depth]
    rfl

theorem within {l : Level} (h : Keeps (.row l) c.enter.2 out) : Keeps (.within l) c out := by
  rw [enter_eq] at h
  refine ⟨h.follows, fun f hf => ⟨(h.returns f hf).1, ?_⟩, fun e he => ?_⟩
  · rw [(h.returns f hf).2]
    exact Int.add_zero _
  · have hdepth : c.depth + 1 ≤ out.2.depth := h.raises e he
    omega

end Keeps

theorem Descends.keeps {r : Routine} {c : Cursor} {out : Outcome} (h : Descends r c out) : Keeps r c out := by
  induction h with
  | whole _ ih => exact ih.ended
  | chain _ _ hmore ihfirst ihmore => exact (Keeps.chain (fun _ he => he) hmore ihfirst ihmore).at_level _
  | failed => exact ⟨.refl _, fun _ h => (by cases h), fun _ _ => Int.le_refl _⟩
  | done => exact ⟨.refl _, fun _ _ => ⟨Nat.le_refl _, by simp [Routine.opened]⟩, fun _ h => (by cases h)⟩
  | again _ _ _ hmore ihnext ihmore =>
    exact .more (.chain (fun _ he => by rw [he]; rfl) hmore ihnext ihmore) _ _
  | conditional hc _ ih => exact .leaving rfl (Nat.zero_le _) (by rw [hc]; simp) ih _
  | @within l c c' out henter _ ih => exact .within (by rw [henter]; exact ih)
  | @tooDeep l e c c' henter =>
    obtain rfl : c' = { c with depth := c.depth + 1 } := by rw [← enter_eq, henter]
    exact ⟨.of_eq rfl rfl, fun _ h => (by cases h), fun _ _ => (by dsimp only; omega)⟩
  | neg hc _ ih => exact .leaving rfl (Nat.le_refl _) (by rw [hc]; simp) ih _
  | atom _ _ ih => exact ih.at_level _
  | name hc => exact .of_advance (by rw [hc]; simp)
  | top hc => exact .of_advance (by rw [hc]; simp)
  | bottom hc => exact .of_advance (by rw [hc]; simp)
  | group hc _ ih => exact .closing (by rw [hc]; simp) ih
  | missing => exact ⟨.refl _, fun _ h => (by cases h), fun _ _ => Int.le_refl _⟩

theorem Keeps.depth_le {l : Level} {c : Cursor} {out : Outcome} (h : Keeps (.row l) c out) :
    c.depth ≤ out.2.depth := by
  rcases hout : out.1 with e | f
  · exact h.raises e hout
  · have hdepth : out.2.depth = c.depth + 0 := (h.returns f hout).2
    omega

/-- What a routine calls starts no further back, and with no fewer levels open. -/
theorem Calls.forward {r r' : Routine} {c c' : Cursor} (h : Calls r c r' c') :
    c.Follows c' ∧ c.depth ≤ c'.depth := by
  cases h with
  | whole => exact ⟨.refl c, Int.le_refl _⟩
  | operand => exact ⟨.refl c, Int.le_refl _⟩
  | more _ hfirst => exact ⟨hfirst.keeps.follows, hfirst.keeps.depth_le⟩
  | next => exact ⟨c.follows_advance, Int.le_of_eq c.advance_depth.symm⟩
  | again _ _ hnext =>
    exact ⟨c.follows_advance.trans hnext.keeps.follows, c.advance_depth ▸ hnext.keeps.depth_le⟩
  | conditional => exact ⟨c.follows_advance, Int.le_of_eq c.advance_depth.symm⟩
  | within henter =>
    obtain rfl : c' = { c with depth := c.depth + 1 } := by rw [← enter_eq, henter]
    exact ⟨.of_eq rfl rfl, by dsimp only; omega⟩
  | neg => exact ⟨c.follows_advance, Int.le_of_eq c.advance_depth.symm⟩
  | atom => exact ⟨.refl c, Int.le_refl _⟩
  | group => exact ⟨c.follows_advance, Int.le_of_eq c.advance_depth.symm⟩

theorem Open.forward {r r' : Routine} {c c' : Cursor} (h : Open r c r' c') :
    c.Follows c' ∧ c.depth ≤ c'.depth := by
  induction h with
  | here => exact ⟨.refl c, Int.le_refl _⟩
  | call _ hcalls ih => exact ⟨ih.1.trans hcalls.forward.1, Int.le_trans ih.2 hcalls.forward.2⟩

end Parser

/-! ## Tokens up to the first end -/

namespace Token

/-- The tokens with an end behind them, if the last one is none. -/
def closed (ts : List Token) : List Token :=
  if ts.getLast?.map (·.kind) = some .finish then ts else ts ++ [ending]

/-- The place of the first end. -/
def firstEnd (ts : List Token) : Nat :=
  (closed ts).findIdx (·.kind = .finish)

/-- The tokens up to the first end, which is put behind them if there is none. -/
def visible : List Token → List Token
  | [] => [ending]
  | t :: ts => if t.kind = .finish then [t] else t :: visible ts

theorem closed_cons {t : Token} (h : t.kind ≠ .finish) (ts : List Token) : closed (t :: ts) = t :: closed ts := by
  unfold closed
  rcases ts with _ | ⟨u, ts⟩
  · simp [h]
  · rw [List.getLast?_cons_cons]
    split <;> rfl

theorem closed_append {front : List Token} (h : ∀ t ∈ front, t.kind ≠ .finish) (back : List Token) :
    closed (front ++ back) = front ++ closed back := by
  induction front with
  | nil => rfl
  | cons t front ih =>
    rw [List.cons_append, closed_cons (h t (by simp)), ih fun u hu => h u (by simp [hu])]
    rfl

/-- The first of the closed tokens is the one that a cursor in front of them sees. -/
theorem closed_head (ts : List Token) : ∃ rest, closed ts = ts.head?.getD ending :: rest := by
  unfold closed
  rcases ts with _ | ⟨t, ts⟩
  · exact ⟨[], rfl⟩
  · split
    · exact ⟨ts, rfl⟩
    · exact ⟨ts ++ [ending], rfl⟩

theorem visible_eq (ts : List Token) : visible ts = (closed ts).take (firstEnd ts + 1) := by
  induction ts with
  | nil => rfl
  | cons t ts ih =>
    unfold visible
    by_cases ht : t.kind = .finish
    · obtain ⟨rest, hrest⟩ := closed_head (t :: ts)
      have hfirst : firstEnd (t :: ts) = 0 := by
        unfold firstEnd
        rw [hrest, List.head?_cons, Option.getD_some, List.findIdx_cons]
        simp [ht]
      rw [if_pos ht, hfirst, hrest]
      rfl
    · have hfirst : firstEnd (t :: ts) = firstEnd ts + 1 := by
        unfold firstEnd
        rw [closed_cons ht, List.findIdx_cons]
        simp [ht]
      rw [if_neg ht, hfirst, closed_cons ht, List.take_succ_cons, ih]

end Token

open Token

namespace Cursor

/-! ## Calls -/

inductive Call
  | peek
  | advance
  | accept (kind : Token.Kind)
  | enter
  | leave
  | readAll
  | read (l : Level)

/-- What a call answers. -/
inductive Answer
  | token (t : Token)
  | found (b : Bool)
  | opened (r : Except FormulaError Unit)
  | nothing
  | formula (r : Except FormulaError Formula)

/-- The routine that a call runs, if it reads a formula. -/
def Call.routine? : Call → Option Routine
  | readAll => some .whole
  | read l => some (.row l)
  | _ => none

def call (c : Cursor) : Call → Answer × Cursor
  | .peek => (.token c.peek, c)
  | .advance => (.token c.peek, c.advance)
  | .accept kind => (.found (c.accept kind).1, (c.accept kind).2)
  | .enter => (.opened c.enter.1, c.enter.2)
  | .leave => (.nothing, c.leave)
  | .readAll => (.formula c.readAll.1, c.readAll.2)
  | .read l => (.formula (c.read l).1, (c.read l).2)

def after (c : Cursor) (calls : List Call) : Cursor :=
  calls.foldl (fun c k => (c.call k).2) c

/-- What the calls answer one after another, and the place and the depth behind each. -/
def answers (c : Cursor) : List Call → List (Answer × Nat × Int)
  | [] => []
  | k :: rest => ((c.call k).1, (c.call k).2.pos, (c.call k).2.depth) :: (c.call k).2.answers rest

/-- A call that reads a formula answers what its routine ends with, and nothing else. -/
theorem descends_call_iff {c : Cursor} {k : Call} {r : Routine} (hk : k.routine? = some r) {out : Outcome} :
    Descends r c out ↔ c.call k = (.formula out.1, out.2) := by
  obtain ⟨result, c'⟩ := out
  cases k with
  | readAll =>
    cases hk
    rw [descends_whole_iff]
    simp [call, Prod.ext_iff]
  | read l =>
    cases hk
    rw [descends_row_iff]
    simp [call, Prod.ext_iff]
  | _ => cases hk

/-- Each call goes forward. -/
theorem follows_call (c : Cursor) (k : Call) : c.Follows (c.call k).2 := by
  cases k with
  | peek => exact .refl c
  | advance => exact c.follows_advance
  | accept kind => exact c.follows_accept kind
  | enter => exact c.follows_enter
  | leave => exact c.follows_leave
  | readAll => exact (descends_whole_iff.2 rfl).keeps.follows
  | read l => exact (descends_row_iff.2 rfl).keeps.follows

theorem follows_after (c : Cursor) (calls : List Call) : c.Follows (c.after calls) := by
  induction calls generalizing c with
  | nil => exact .refl c
  | cons k rest ih => exact (c.follows_call k).trans (ih (c.call k).2)

/-! ## Nothing behind the first end -/

/-- The cursor with the tokens left out that it cannot reach. -/
def shortened (c : Cursor) : Cursor :=
  { c with ahead := visible c.ahead }

theorem nextToken_visible (ts : List Token) : nextToken (visible ts) = nextToken ts := by
  rcases ts with _ | ⟨t, ts⟩
  · rfl
  · rw [visible]
    split <;> rfl

@[simp] theorem shortened_peek (c : Cursor) : c.shortened.peek = c.peek :=
  nextToken_visible c.ahead

theorem shortened_advance (c : Cursor) : c.shortened.advance = c.advance.shortened := by
  unfold advance
  rw [shortened_peek]
  by_cases h : c.peek.kind = .finish
  · rw [if_pos h, if_pos h]
  · obtain ⟨t, rest, hahead, rfl, -⟩ := ahead_of_kind rfl h
    rw [if_neg h, if_neg h]
    simp only [shortened, hahead, visible, if_neg h, List.tail_cons]

theorem shortened_enter (c : Cursor) : c.shortened.enter = (c.enter.1, c.enter.2.shortened) := by
  have hpeek : peek { c.shortened with depth := c.shortened.depth + 1 } = peek { c with depth := c.depth + 1 } :=
    c.shortened_peek
  unfold enter
  dsimp only
  rw [hpeek]
  show (if (nestingLimit : Int) < c.depth + 1 then _ else _) = _
  split <;> rfl

/-- A run does not see what is behind the first end. -/
theorem run_visible (base : Level) (ts : List Token) (m : Machine) (pos : Nat) :
    run base m pos (visible ts) = ((run base m pos ts).1, (run base m pos ts).2.shortened) := by
  induction ts generalizing m pos with
  | nil =>
    rw [visible, run_of_stopped (shift?_finish m rfl), run_of_stopped (shift?_finish m rfl)]
    rfl
  | cons t ts ih =>
    rcases hs : m.shift? base t with _ | m'
    · have hstop : m.shift? base (nextToken (t :: ts)) = none := hs
      have hvisible := nextToken_visible (t :: ts)
      rw [run_of_stopped hstop, run_of_stopped (by rw [hvisible]; exact hs), hvisible]
      rfl
    · have ht : t.kind ≠ .finish := fun ht => by cases hs.symm.trans (shift?_finish m ht)
      rw [visible, if_neg ht, run_cons hs, run_cons hs, ih]

theorem shortened_read (c : Cursor) (l : Level) : c.shortened.read l = ((c.read l).1, (c.read l).2.shortened) :=
  run_visible l c.ahead (Machine.start c.depth) c.pos

theorem shortened_readAll (c : Cursor) : c.shortened.readAll = (c.readAll.1, c.readAll.2.shortened) := by
  rw [readAll_eq, readAll_eq, shortened_read]
  rcases c.read .iff with ⟨e | f, c'⟩
  · rfl
  · unfold ended
    simp only [shortened_peek]
    split <;> rfl

/-- A call answers the same if the tokens behind the first end are left out. -/
theorem shortened_call (c : Cursor) (k : Call) :
    c.shortened.call k = ((c.call k).1, (c.call k).2.shortened) := by
  cases k with
  | peek => simp [call]
  | advance => simp [call, shortened_advance]
  | accept kind =>
    simp only [call, accept, shortened_peek, shortened_advance]
    split <;> rfl
  | enter => simp [call, shortened_enter]
  | leave => rfl
  | readAll => simp [call, shortened_readAll]
  | read l => simp [call, shortened_read]

theorem shortened_answers (c : Cursor) (calls : List Call) : c.shortened.answers calls = c.answers calls := by
  induction calls generalizing c with
  | nil => rfl
  | cons k rest ih =>
    rw [answers, answers, shortened_call]
    dsimp only
    rw [ih]
    rfl

/-! ## After any calls -/

/-- What a call does at a cursor over the tokens. The token that the cursor sees is there, and the call moves it
forward, no further than the first end. A call that reads a formula has one outcome; if it returns, it has taken a
token and left the depth as it was, and if it raises, the depth is no smaller. So it is at every call that is open
while it runs, should it be cut off there. -/
structure Orderly (ts : List Token) (c : Cursor) (k : Call) : Prop where
  sees : (closed ts)[c.pos]? = some c.peek
  forward : c.pos ≤ (c.call k).2.pos
  bounded : (c.call k).2.pos ≤ firstEnd ts
  ends : ∀ r, k.routine? = some r → ∀ out : Outcome, Descends r c out ↔ c.call k = (.formula out.1, out.2)
  returns : ∀ f, (c.call k).1 = .formula (.ok f) → c.pos < (c.call k).2.pos ∧ (c.call k).2.depth = c.depth
  raises : ∀ e, (c.call k).1 = .formula (.error e) → c.depth ≤ (c.call k).2.depth
  meanwhile : ∀ r, k.routine? = some r → ∀ r' c', Open r c r' c' →
    c.pos ≤ c'.pos ∧ c'.pos ≤ firstEnd ts ∧ c.depth ≤ c'.depth

/-- Behind tokens that are no ends a cursor sees one of the closed tokens, up to the first end. -/
theorem sees_of_follows {ts : List Token} {c : Cursor} (h : (ofTokens ts).Follows c) :
    (closed ts)[c.pos]? = some c.peek ∧ c.pos ≤ firstEnd ts := by
  obtain ⟨skipped, hahead, hpos, hends⟩ := h
  obtain ⟨rest, hrest⟩ := closed_head c.ahead
  have hclosed : closed ts = skipped ++ c.peek :: rest := by
    rw [show ts = skipped ++ c.ahead from hahead, closed_append hends, hrest]
    rfl
  have hlength : c.pos = skipped.length := by
    rw [hpos]
    exact Nat.zero_add _
  have hnone : skipped.findIdx (·.kind = .finish) = skipped.length :=
    List.findIdx_eq_length.2 fun t ht => by simpa using hends t ht
  constructor
  · rw [hclosed, hlength, List.getElem?_append_right (Nat.le_refl _), Nat.sub_self]
    rfl
  · rw [firstEnd, hclosed, List.findIdx_append, hnone, if_neg (Nat.lt_irrefl _), hlength]
    exact Nat.le_add_left _ _

/-- The calls that read a formula run a routine at the cursor. -/
theorem routine_of_formula {c : Cursor} {k : Call} {result : Except FormulaError Formula}
    (h : (c.call k).1 = .formula result) :
    ∃ r, k.routine? = some r ∧ r.taken = 1 ∧ r.opened = 0 ∧ Descends r c (result, (c.call k).2) := by
  have hcall : c.call k = (.formula result, (c.call k).2) := Prod.ext h rfl
  cases k with
  | readAll => exact ⟨.whole, rfl, rfl, rfl, (descends_call_iff rfl).2 hcall⟩
  | read l => exact ⟨.row l, rfl, rfl, rfl, (descends_call_iff rfl).2 hcall⟩
  | _ => cases h

/-- However a cursor was called, over whatever tokens, the next call is orderly, and no answer depends on what is
behind the first end. -/
theorem orderly_after (ts : List Token) (calls : List Call) (k : Call) :
    Orderly ts ((ofTokens ts).after calls) k ∧
      (ofTokens ts).answers calls = (ofTokens ((closed ts).take (firstEnd ts + 1))).answers calls := by
  have hfollows := (ofTokens ts).follows_after calls
  have hcall := follows_call ((ofTokens ts).after calls) k
  refine ⟨⟨(sees_of_follows hfollows).1, hcall.pos_le, (sees_of_follows (hfollows.trans hcall)).2,
    fun r hr out => descends_call_iff hr, fun f hf => ?_, fun e he => ?_, fun r _ r' c' hopen => ?_⟩, ?_⟩
  · obtain ⟨r, -, htaken, hopened, hd⟩ := routine_of_formula hf
    obtain ⟨hpos, hdepth⟩ := hd.keeps.returns f rfl
    rw [htaken] at hpos
    rw [hopened, Int.add_zero] at hdepth
    exact ⟨hpos, hdepth⟩
  · obtain ⟨r, -, -, -, hd⟩ := routine_of_formula he
    exact hd.keeps.raises e rfl
  · obtain ⟨hforward, hdepth⟩ := hopen.forward
    exact ⟨hforward.pos_le, (sees_of_follows (hfollows.trans hforward)).2, hdepth⟩
  · rw [← visible_eq]
    exact ((ofTokens ts).shortened_answers calls).symm

/-- A parenthesis that is not closed leaves its level open, and a cursor can be brought below all levels. -/
example : ((ofTokens [⟨.leftParen, "(", 0⟩, ⟨.identifier, "p", 1⟩]).after [.readAll]).depth = 1 ∧
    ((ofTokens [⟨.leftParen, "(", 0⟩, ⟨.identifier, "p", 1⟩]).after [.readAll, .leave, .leave]).depth = -1 :=
  ⟨rfl, rfl⟩

end Cursor

end Deduction
