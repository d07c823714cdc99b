/-
Which texts can be patterns, and which values they match.

- `readAt`: what is read of a text, some groups deep. `Piece.Fits`: what is in the limits. `EndsInComment`: a comment is open
  at the end of a text. `FitsGroup`: one more group around a text is in the limits.
- `run_expression_outside`: one group less makes no difference, but that there is none to close in the end.
- `InGroup`: what comes of a text in a group, one of three things. `parse_anchored_iff`: what comes of it between anchors.
- `Pattern.compiled_iff`: a text can be a pattern if and only if it is a regular expression, does not end in a comment and
  fits one more group; and a pattern matches the values that the expression of its text matches as a whole.
-/
import ConceptGraph.Proofs.Regex.EnclosedExpressions
import ConceptGraph.Proofs.Regex.Matching
import ConceptGraph.Pattern

namespace ConceptGraph.Regex

/-! ## Limits -/

/-- what is read of a text, that many groups deep -/
def readAt (depth : Nat) (text : List Char) : Except Fault (Piece × Reading) :=
  StateT.run (Reader.expression (text.length + 1) depth [] []) ⟨text, .none, []⟩

namespace Piece

/-- the piece is not nested too deep, and its automaton is not too large -/
def Fits (p : Piece) : Prop := p.height ≤ Reader.maxNesting ∧ p.automatonBytes ≤ maxBytes

instance (p : Piece) : Decidable p.Fits := inferInstanceAs (Decidable (_ ∧ _))

/-- the piece between anchors -/
def anchored (p : Piece) : Piece := .concat [.look .start, p, .look .finish]

end Piece

/-- a comment is open at the end of the text, and takes in what follows: a parenthesis goes unnoticed -/
def EndsInComment (text : List Char) : Prop := ∃ e, parse (text ++ [')']) = .ok e

/-- the text can stand in one more group, between anchors, without going beyond the limits -/
def FitsGroup (text : List Char) : Prop := ∃ p s, readAt 1 text = .ok (p, s) ∧ p.anchored.Fits

theorem parse_eq_ok {text : List Char} {e : Expr} :
    parse text = .ok e ↔ ∃ p s, readAt 0 text = .ok (p, s) ∧ p.Fits ∧ p.expr = e := by
  have hrun : StateT.run' (Reader.expression (text.length + 1) 0 [] []) ⟨text, .none, []⟩ =
      Prod.fst <$> readAt 0 text := rfl
  rw [parse, hrun]
  cases readAt 0 text with
  | error err => exact iff_of_false nofun (by rintro ⟨_, _, ⟨⟩, _⟩)
  | ok r =>
    have hread : ∀ k : Piece → Except Fault Expr, (Prod.fst <$> (Except.ok r : Except Fault (Piece × Reading)) >>= k) =
      k r.1 := fun _ => rfl
    simp only [hread, if_throw_bind_eq_ok, Nat.not_lt, pure_eq_ok, Except.ok.injEq]
    constructor
    · rintro ⟨hheight, hbytes, he⟩
      exact ⟨r.1, r.2, rfl, ⟨hheight, hbytes⟩, he⟩
    · rintro ⟨p, s, rfl, ⟨hheight, hbytes⟩, he⟩
      exact ⟨hheight, hbytes, he⟩

/-! ## One group less -/

namespace Reader

variable {s s' : Reading} {p : Piece}

/-- what is read at first is the same, whatever is done with it -/
theorem run_bind_same {α β : Type} {f : Reader α} {g g' : α → Reader β} {r : Except Fault (β × Reading)} {b : β}
    (h : StateT.run (f >>= g) s = .ok (b, s'))
    (hg : ∀ a s₁, StateT.run (g a) s₁ = .ok (b, s') → StateT.run (g' a) s₁ = r) : StateT.run (f >>= g') s = r := by
  obtain ⟨a, s₁, hf, h⟩ := run_bind_eq_ok.1 h
  rw [run_bind_of_ok hf]
  exact hg a s₁ h

/-- the same is read one level further out, but nothing is there to be closed outside all groups -/
theorem run_expression_outside {n depth : Nat} {done items : List Piece}
    (h : StateT.run (expression n (depth + 1) done items) s = .ok (p, s')) :
    StateT.run (expression n depth done items) s =
      if depth = 0 ∧ s'.rest ≠ [] then .error .unopenedGroup else .ok (p, s') := by
  induction n generalizing s depth done items p s' with
  | zero => cases h
  | succ n ih =>
    refine run_bind_same h fun _ s₁ h => ?_
    rw [run_peek_bind] at h ⊢
    cases hs : s₁.rest with
    | nil =>
      rw [hs] at h
      obtain ⟨rfl, rfl⟩ := Prod.mk.inj (Except.ok.inj h)
      exact (if_neg fun hne => hne.2 hs).symm
    | cons c cs =>
      rw [hs, List.head?_cons] at h
      rw [List.head?_cons]
      dsimp only at h ⊢
      by_cases hopen : c = '('
      · rw [if_pos hopen] at h ⊢
        refine run_bind_same h fun _ _ h => run_bind_same h fun start _ h => ?_
        by_cases hflags : start = .flagsOnly
        · rw [if_pos hflags] at h ⊢
          exact run_bind_same h fun _ _ h => ih h
        rw [if_neg hflags] at h ⊢
        by_cases hdeep : maxNesting < depth + 1 + 1
        · rw [if_pos hdeep] at h
          cases h
        rw [if_neg hdeep] at h
        rw [if_neg fun hmore => hdeep (Nat.lt_succ_of_lt hmore)]
        -- the group is not outside all groups, so it is closed
        obtain ⟨body, s₃, hbody, h⟩ := run_bind_eq_ok.1 h
        rw [run_bind_of_ok ((ih hbody).trans (if_neg fun hzero => Nat.succ_ne_zero depth hzero.1))]
        exact run_bind_same h fun _ _ h => ih h
      rw [if_neg hopen] at h ⊢
      by_cases hclose : c = ')'
      · rw [if_pos hclose] at h ⊢
        rw [if_neg (Nat.succ_ne_zero depth)] at h
        obtain ⟨rfl, rfl⟩ := Prod.mk.inj (Except.ok.inj h)
        have hne : s₁.rest ≠ [] := hs ▸ List.cons_ne_nil c cs
        by_cases hdepth : depth = 0
        · rw [if_pos hdepth, if_pos ⟨hdepth, hne⟩]
          rfl
        · rw [if_neg hdepth, if_neg fun h => hdepth h.1]
          rfl
      rw [if_neg hclose] at h ⊢
      by_cases halt : c = '|'
      · rw [if_pos halt] at h ⊢
        exact run_bind_same h fun _ _ h => ih h
      rw [if_neg halt] at h ⊢
      by_cases hrep : isRepetition c
      · rw [if_pos hrep] at h ⊢
        exact run_bind_same h fun _ _ h => ih h
      · rw [if_neg hrep] at h ⊢
        exact run_bind_same h fun _ _ h => ih h

/-! ## Anchors -/

/-- up to a text in a group there is an anchor only -/
theorem run_anchored (n : Nat) (cs : List Char) :
    StateT.run (expression (n + 2) 0 [] []) ⟨'^' :: '(' :: '?' :: ':' :: cs, .none, []⟩ =
      StateT.run (expression n 1 [] [] >>= fun body => closeGroup .none >>= fun _ =>
        expression n 0 [] [body, .look .start]) ⟨cs, .none, []⟩ := rfl

/-- behind the group there is an anchor only -/
theorem run_closed (n : Nat) (body : Piece) (hs : s.rest = [')', '$']) :
    StateT.run (closeGroup .none >>= fun _ => expression (n + 2) 0 [] [body, .look .start]) s =
      .ok (body.anchored, ⟨[], .none, s.names⟩) := by
  obtain ⟨rest, flags, names⟩ := s
  obtain rfl : rest = [')', '$'] := hs
  rfl

theorem run_unclosed {α : Type} {flags : Flags} {k : Unit → Reader α} (hs : s.rest = []) :
    StateT.run (closeGroup flags >>= k) s = .error .unclosedGroup := by
  obtain ⟨rest, flags', names⟩ := s
  obtain rfl : rest = [] := hs
  rfl

end Reader

open Reader

variable {text : List Char} {p : Piece} {s : Reading}

/-- what comes of a text in a group, with enough fuel for the text, depends on what ends the group alone -/
def InGroup (text : List Char) (r : List Char → Except Fault (Piece × Reading)) : Prop :=
  ∀ n t, text.length < n → Closing t → StateT.run (expression n 1 [] []) ⟨text ++ t, .none, []⟩ = r t

theorem inGroup_of_read (hread : readAt 0 text = .ok (p, s)) : InGroup text (fun t => .ok (p, s.followedBy t)) ∨
    (s.rest = [] ∧ InGroup text fun _ => .ok (p, s)) ∨ InGroup text fun _ => .error .tooNested := by
  cases Enclosed.expression (m := fun n : { n // text.length + 1 ≤ n } => n.1) (fun n => n.2) p s hread with
  | kept _ h => exact Or.inl fun n t hn ht => h ⟨n, hn⟩ t ht
  | taken hrest h => exact Or.inr (Or.inl ⟨hrest, fun n t hn ht => h ⟨n, hn⟩ t ht⟩)
  | tooNested h => exact Or.inr (Or.inr fun n t hn ht => h ⟨n, hn⟩ t ht)

theorem readAt_anchored (text : List Char) : readAt 0 ('^' :: '(' :: '?' :: ':' :: (text ++ [')', '$'])) =
    StateT.run (expression (text.length + 5) 1 [] [] >>= fun body => closeGroup .none >>= fun _ =>
      expression (text.length + 5) 0 [] [body, .look .start]) ⟨text ++ [')', '$'], .none, []⟩ := by
  rw [← run_anchored, readAt]
  simp only [List.length_cons, List.length_append, List.length_nil]

namespace InGroup

variable {r : List Char → Except Fault (Piece × Reading)} {a : Expr}

theorem alone (h : InGroup text r) : readAt 1 text = r [] := by
  have hsame := h (text.length + 1) [] (Nat.lt_succ_self _) .nothing
  rwa [List.append_nil] at hsame

theorem closed (h : InGroup text r) (hr : r [')'] = .ok (p, s)) : readAt 0 (text ++ [')']) =
    if s.rest ≠ [] then .error .unopenedGroup else .ok (p, s) := by
  have hin := (h (text.length + 2) [')'] (by omega) .group).trans hr
  have houtside := run_expression_outside hin
  simp only [true_and] at houtside
  rw [readAt, List.length_append]
  exact houtside

theorem between (h : InGroup text r) (hr : r [')', '$'] = .ok (p, s)) :
    readAt 0 ('^' :: '(' :: '?' :: ':' :: (text ++ [')', '$'])) =
      StateT.run (closeGroup .none >>= fun _ => expression (text.length + 5) 0 [] [p, .look .start]) s := by
  rw [readAt_anchored, run_bind_of_ok ((h (text.length + 5) [')', '$'] (by omega) .anchored).trans hr)]

theorem between_error {fault : Fault} (h : InGroup text r) (hr : r [')', '$'] = .error fault) :
    readAt 0 ('^' :: '(' :: '?' :: ':' :: (text ++ [')', '$'])) = .error fault := by
  rw [readAt_anchored, run_bind_of_error ((h (text.length + 5) [')', '$'] (by omega) .anchored).trans hr)]

/-- what ends the group is left where it is -/
theorem parse_of_kept (h : InGroup text fun t => .ok (p, s.followedBy t)) (hread : readAt 0 text = .ok (p, s)) :
    parse ('^' :: '(' :: '?' :: ':' :: (text ++ [')', '$'])) = .ok a ↔
      ¬ EndsInComment text ∧ FitsGroup text ∧ a = .seq (.look .start) (.seq p.expr (.look .finish)) := by
  have hat : readAt 1 text = .ok (p, s) := by rw [h.alone, Reading.followedBy_nil]
  -- outside all groups, the text has been read to its end
  have hrest : s.rest = [] := by
    by_contra hne
    have houtside := run_expression_outside hat
    rw [if_pos ⟨rfl, hne⟩] at houtside
    cases houtside.symm.trans hread
  have hno : ¬ EndsInComment text := by
    rintro ⟨e, he⟩
    obtain ⟨q, s', hread', -⟩ := parse_eq_ok.1 he
    have hleft : (s.followedBy [')']).rest ≠ [] := List.append_ne_nil_of_right_ne_nil _ (List.cons_ne_nil _ _)
    cases ((h.closed rfl).trans (if_pos hleft)).symm.trans hread'
  have hanchored : readAt 0 ('^' :: '(' :: '?' :: ':' :: (text ++ [')', '$'])) =
      .ok (p.anchored, ⟨[], .none, s.names⟩) :=
    (h.between rfl).trans (run_closed (text.length + 3) p (by rw [Reading.followedBy, hrest]; rfl))
  rw [parse_eq_ok, hanchored]
  constructor
  · rintro ⟨q, s', hq, hfits, rfl⟩
    obtain ⟨rfl, rfl⟩ := Prod.mk.inj (Except.ok.inj hq)
    exact ⟨hno, ⟨p, s, hat, hfits⟩, rfl⟩
  · rintro ⟨-, ⟨q, s', hq, hfits⟩, rfl⟩
    obtain ⟨rfl, rfl⟩ := Prod.mk.inj (Except.ok.inj (hat.symm.trans hq))
    exact ⟨_, _, rfl, hfits, rfl⟩

/-- a comment has taken what would end the group, so that it is not closed -/
theorem refused_of_taken (h : InGroup text fun _ => .ok (p, s)) (hrest : s.rest = []) (hfits : p.Fits) :
    EndsInComment text ∧ parse ('^' :: '(' :: '?' :: ':' :: (text ++ [')', '$'])) ≠ .ok a := by
  constructor
  · exact ⟨p.expr, parse_eq_ok.2 ⟨p, s, (h.closed rfl).trans (if_neg (not_not.2 hrest)), hfits, rfl⟩⟩
  · intro ha
    obtain ⟨q, s', hq, -⟩ := parse_eq_ok.1 ha
    cases ((h.between rfl).trans (run_unclosed hrest)).symm.trans hq

/-- one more group is too much, whatever ends it -/
theorem refused_of_nested (h : InGroup text fun _ => .error .tooNested) :
    ¬ FitsGroup text ∧ parse ('^' :: '(' :: '?' :: ':' :: (text ++ [')', '$'])) ≠ .ok a := by
  constructor
  · rintro ⟨q, s', hat, -⟩
    cases h.alone.symm.trans hat
  · intro ha
    obtain ⟨q, s', hq, -⟩ := parse_eq_ok.1 ha
    cases (h.between_error rfl).symm.trans hq

end InGroup

/-- **A text in a group between anchors** is read as it is by itself, unless it ends in a comment or the group is too much
for the limits. -/
theorem parse_anchored_iff {e a : Expr} (h : parse text = .ok e) :
    parse ('^' :: '(' :: '?' :: ':' :: (text ++ [')', '$'])) = .ok a ↔
      ¬ EndsInComment text ∧ FitsGroup text ∧ a = .seq (.look .start) (.seq e (.look .finish)) := by
  obtain ⟨p, s, hread, hfits, rfl⟩ := parse_eq_ok.1 h
  rcases inGroup_of_read hread with hkept | ⟨hrest, htaken⟩ | hnested
  · exact hkept.parse_of_kept hread
  · obtain ⟨hcomment, hrefused⟩ := htaken.refused_of_taken (a := a) hrest hfits
    exact iff_of_false hrefused fun hno => hno.1 hcomment
  · obtain ⟨hmore, hrefused⟩ := hnested.refused_of_nested (a := a)
    exact iff_of_false hrefused fun hfit => hmore hfit.2.1

end ConceptGraph.Regex

namespace ConceptGraph.Pattern

open Regex

/-- between anchors, the whole text is matched -/
theorem occursIn_anchored {e : Expr} {text : String} :
    (Expr.seq (.look .start) (.seq e (.look .finish))).occursIn text ↔ e.Spans text := by
  rw [Expr.occursIn_iff]
  constructor
  · rintro ⟨i, j, -, k, ⟨hstart, rfl⟩, l, he, hfinish, rfl⟩
    obtain rfl := beq_iff_eq.1 hstart
    obtain rfl := beq_iff_eq.1 hfinish
    exact he
  · intro he
    exact ⟨0, _, Nat.zero_le _, 0, ⟨rfl, rfl⟩, _, he, beq_self_eq_true _, rfl⟩

theorem compile_eq_ok {source : String} {p : Pattern} : compile source = .ok p ↔
    p.source = source ∧ ∃ e, parse source.toList = .ok e ∧ parse (anchored source) = .ok p.expr := by
  have hread : ∀ a, read source = .ok a ↔ ∃ e, parse source.toList = .ok e ∧ parse (anchored source) = .ok a :=
    fun a => bind_eq_ok
  rw [← hread, compile]
  cases read source with
  | error err => exact iff_of_false nofun fun h => nomatch h.2
  | ok a =>
    obtain ⟨source', expr⟩ := p
    simp only [Except.ok.injEq, Pattern.mk.injEq, eq_comm]

theorem compile_cases (source : String) :
    (∃ p, compile source = .ok p) ∨ ∃ reason, compile source = .error (.invalidPattern source reason) := by
  rw [compile]
  cases read source with
  | ok e => exact Or.inl ⟨_, rfl⟩
  | error fault => exact Or.inr ⟨_, rfl⟩

/-- **A text can be a pattern** if and only if it is a regular expression, does not end in a comment and leaves room for one
more group in the limits; otherwise it is an invalid pattern. And a pattern matches the values that the expression of its
text matches as a whole, whichever way. -/
theorem compiled_iff (source : String) :
    ((∃ p, compile source = .ok p) ∨ ∃ reason, compile source = .error (.invalidPattern source reason)) ∧
    ((∃ p, compile source = .ok p) ↔
      (∃ e, parse source.toList = .ok e) ∧ ¬ EndsInComment source.toList ∧ FitsGroup source.toList) ∧
    ∀ p, compile source = .ok p → p.source = source ∧
      ∃ e, parse source.toList = .ok e ∧ ∀ value, p.isMatch value ↔ e.Spans value := by
  refine ⟨compile_cases source, ⟨?_, ?_⟩, ?_⟩
  · rintro ⟨p, hp⟩
    obtain ⟨-, e, he, ha⟩ := compile_eq_ok.1 hp
    obtain ⟨hno, hfits, -⟩ := (parse_anchored_iff he).1 ha
    exact ⟨⟨e, he⟩, hno, hfits⟩
  · rintro ⟨⟨e, he⟩, hno, hfits⟩
    exact ⟨⟨source, _⟩, compile_eq_ok.2 ⟨rfl, e, he, (parse_anchored_iff he).2 ⟨hno, hfits, rfl⟩⟩⟩
  · intro p hp
    obtain ⟨hsource, e, he, ha⟩ := compile_eq_ok.1 hp
    obtain ⟨-, -, hexpr⟩ := (parse_anchored_iff he).1 ha
    refine ⟨hsource, e, he, fun value => ?_⟩
    rw [isMatch, hexpr]
    exact occursIn_anchored

set_option maxRecDepth 10000 in
/-- a comment that is open at the end of a regular expression makes it no pattern. Otherwise a whole value is a match if the
second way leads through it, though the first one does not. -/
theorem commented_not_compiled :
    ((∃ e, parse "(?x)a#c".toList = .ok e) ∧ ¬ ∃ p, compile "(?x)a#c" = .ok p) ∧
    ∃ p, compile "a|ab" = .ok p ∧ p.isMatch "ab" ∧ ∃ e, parse "a|ab".toList = .ok e ∧ e.Spans "ab" := by
  have hparsed : (parse "(?x)a#c".toList).toOption = some (.char 'a') := by decide +kernel
  have hcomment : (parse ("(?x)a#c".toList ++ [')'])).toOption = some (.char 'a') := by decide +kernel
  have hmatch : (compile "a|ab").toOption.map (·.isMatch "ab") = some true := by decide +kernel
  refine ⟨⟨⟨_, toOption_eq_some.1 hparsed⟩, fun hcompiled => ?_⟩, ?_⟩
  · exact ((compiled_iff "(?x)a#c").2.1.1 hcompiled).2.1 ⟨_, toOption_eq_some.1 hcomment⟩
  · obtain ⟨p, hp, hab⟩ := Option.map_eq_some_iff.1 hmatch
    obtain ⟨-, e, he, hspans⟩ := (compiled_iff "a|ab").2.2 p (toOption_eq_some.1 hp)
    exact ⟨p, toOption_eq_some.1 hp, hab, e, he, (hspans "ab").1 hab⟩

end ConceptGraph.Pattern
