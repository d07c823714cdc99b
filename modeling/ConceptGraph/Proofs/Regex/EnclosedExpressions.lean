/-
Expressions in a group are read as they are by themselves, part by part.

- `Enclosed.charClass`: a class is closed in the text, whatever is looked at beyond a dash (`beyond_followedBy`).
- `Enclosed.repetition`: marks and counts. `Enclosed.opening`: the names and flags of a group.
- `Enclosed.expression`: an expression, with the groups in it one level deeper than by itself.
-/
import ConceptGraph.Proofs.Regex.ClosedGroups

namespace ConceptGraph.Regex

open Text

/-- a mark that is in a text stays the first one, whatever follows -/
theorem span_append {p : Char → Bool} {cs : List Char} (h : cs.dropWhile p ≠ []) (t : List Char) :
    (cs ++ t).takeWhile p = cs.takeWhile p ∧ (cs ++ t).dropWhile p = cs.dropWhile p ++ t := by
  constructor
  · rw [List.takeWhile_append, if_neg]
    intro hlen
    have hsplit := congrArg List.length (List.takeWhile_append_dropWhile (p := p) (l := cs))
    rw [List.length_append, hlen, Nat.add_eq_left, List.length_eq_zero_iff] at hsplit
    exact h hsplit
  · rw [List.dropWhile_append, if_neg (by rwa [List.isEmpty_iff])]

namespace Reader

variable {α β ι : Type} {s s' : Reading} {a : α} {e : Fault} {c : Char} {t : List Char}

/-! ## Character classes -/

theorem negation_append {cs : List Char} (h : cs ≠ []) (t : List Char) :
    negation (cs ++ t) = ((negation cs).1, (negation cs).2 ++ t) := by
  cases cs with
  | nil => exact absurd rfl h
  | cons c cs =>
    rw [List.cons_append]
    by_cases hc : c = '^'
    · rw [hc]
      rfl
    · unfold negation
      split <;> simp_all

/-- a named class ends before what follows -/
theorem run_namedClass {set : CharSet} (h : StateT.run namedClass s = .ok (some set, s')) (t : List Char) :
    StateT.run namedClass (s.followedBy t) = .ok (some set, s'.followedBy t) := by
  rw [namedClass, run_get_bind] at h ⊢
  split at h
  · rename_i cs hs
    have hs' : (s.followedBy t).rest = '[' :: ':' :: (cs ++ t) := by rw [Reading.followedBy, hs]; rfl
    dsimp only at h
    split at h
    · rename_i rest set' hdrop hname
      obtain ⟨hset, rfl⟩ := Prod.mk.inj (Except.ok.inj h)
      have hne : cs ≠ [] := by
        rintro rfl
        cases hdrop
      obtain ⟨htake, hdrop'⟩ := span_append (by rw [hdrop]; exact List.cons_ne_nil _ _) t
      simp only [hs', negation_append hne, htake, hdrop', hdrop, hname, List.cons_append]
      rw [← hset]
      rfl
    · cases h
  · cases h

theorem rest_of_namedClass {set : CharSet} (h : StateT.run namedClass s = .ok (some set, s')) : s.rest ≠ [] := by
  intro hs
  rw [namedClass, run_get_bind, hs] at h
  cases h

/-- a class name is the only thing that a bracket may start in a class -/
theorem Enclosed.namedClass {g : Option CharSet → Reader β} {g' : ι → Option CharSet → Reader β}
    (hsome : ∀ set s', Enclosed (g (some set)) (fun i => g' i (some set)) s')
    (hnone : g none = MonadExcept.throw e) : Enclosed (namedClass >>= g) (fun i => Reader.namedClass >>= g' i) s := by
  intro b s'' hrun
  obtain ⟨o, s', hname, h⟩ := run_bind_eq_ok.1 hrun
  cases o with
  | none =>
    rw [hnone] at h
    cases h
  | some set =>
    exact (hsome set s' b s'' h).through (fun hs => absurd hs (rest_of_namedClass hname)) fun i t _ =>
      ⟨i, run_bind_of_ok (run_namedClass hname t)⟩

theorem Enclosed.classItem : Enclosed classItem (fun _ : ι => Reader.classItem) s := by
  refine .peek (fun c cs hs => .bind (.next (hs ▸ List.cons_ne_nil c cs)) fun _ _ _ => ?_) fun _ => Or.inl nofun
  split
  · exact .bind .escape fun _ _ _ => .pure _
  · exact .pure _

theorem Enclosed.itemRanges {x : Expr} : Enclosed (itemRanges x) (fun _ : ι => Reader.itemRanges x) s := by
  cases x with
  | char c => exact .pure _
  | set r => exact .pure _
  | _ => exact .throw

theorem Enclosed.itemChar {x : Expr} : Enclosed (itemChar x) (fun _ : ι => Reader.itemChar x) s := by
  cases x with
  | char c => exact .pure _
  | _ => exact .throw

theorem firstBeyond_of_mark {cs ds : List Char} (h : dropBlanks cs = '#' :: ds) :
    firstBeyond cs = (dropBlanks ds).head? := by
  rw [firstBeyond, h]
  rfl

theorem firstBeyond_of_no_mark {cs : List Char} (h : (dropBlanks cs).head? ≠ some '#') :
    firstBeyond cs = (dropBlanks cs).head? := by
  unfold firstBeyond
  split
  · rename_i heq
    rw [heq] at h
    exact absurd rfl h
  · rfl

/-- what is seen beyond has no spacing before it, so the next character says nothing more -/
theorem beyond_eq_some {cs : List Char} {c : Char} (hblank : ¬ isBlank c) (hmark : c ≠ '#') :
    (firstBeyond cs <|> cs.head?) = some c ↔ firstBeyond cs = some c := by
  cases hfirst : firstBeyond cs with
  | some d => rfl
  | none =>
    refine iff_of_false (fun h => ?_) nofun
    cases cs with
    | nil => cases h
    | cons d cs =>
      obtain rfl := Option.some.inj h
      have hcs : dropBlanks (d :: cs) = d :: cs := List.dropWhile_cons_of_neg hblank
      rw [firstBeyond_of_no_mark (by rw [hcs]; exact fun h => hmark (Option.some.inj h)), hcs] at hfirst
      cases hfirst

theorem firstBeyond_append {cs t : List Char} (ht : Closing t) {c : Char} (hc : c ≠ ')') :
    firstBeyond (cs ++ t) = some c ↔ firstBeyond cs = some c := by
  have happ := dropBlanks_append cs ht
  by_cases hmark : (dropBlanks cs).head? = some '#'
  · obtain ⟨ds, hds⟩ := List.head?_eq_some_iff.1 hmark
    rw [hds, List.cons_append] at happ
    rw [firstBeyond_of_mark hds, firstBeyond_of_mark happ, dropBlanks_append ds ht]
    exact ht.head_append hc
  · have hmark' : (dropBlanks (cs ++ t)).head? ≠ some '#' := by
      rw [happ]
      exact fun h => hmark ((ht.head_append (by decide)).1 h)
    rw [firstBeyond_of_no_mark hmark, firstBeyond_of_no_mark hmark', happ]
    exact ht.head_append hc

/-- the character that decides whether a dash is the last one of its class -/
def beyond (s : Reading) : Option Char :=
  if s.flags.spaced then firstBeyond s.rest.tail <|> s.rest.tail.head? else s.rest.tail.head?

theorem run_peekBeyond (g : Option Char → Reader β) (s : Reading) :
    StateT.run (peekBeyond >>= g) s = StateT.run (g (beyond s)) s := rfl

theorem beyond_followedBy {c : Char} (hs : s.rest ≠ []) (ht : Closing t) (hc : c ≠ ')') (hblank : ¬ isBlank c)
    (hmark : c ≠ '#') : beyond (s.followedBy t) = some c ↔ beyond s = some c := by
  unfold beyond
  rw [show (s.followedBy t).rest.tail = s.rest.tail ++ t from List.tail_append_of_ne_nil hs]
  by_cases hx : s.flags.spaced
  · rw [if_pos hx, if_pos (show (s.followedBy t).flags.spaced from hx), beyond_eq_some hblank hmark,
      beyond_eq_some hblank hmark]
    exact firstBeyond_append ht hc
  · rw [if_neg hx, if_neg (show ¬ (s.followedBy t).flags.spaced from hx)]
    exact ht.head_append hc

theorem Enclosed.classRange : Enclosed classRange (fun _ : ι => Reader.classRange) s := by
  refine .bind .classItem fun low _ _ => .bind .space fun _ s₁ _ => .peek (fun c cs hs => ?_) fun _ => Or.inl nofun
  have hne : s₁.rest ≠ [] := hs ▸ List.cons_ne_nil c cs
  have hends : ∀ t, Closing t → ((c ≠ '-' ∨ beyond (s₁.followedBy t) = some ']' ∨ beyond (s₁.followedBy t) = some '-') ↔
      (c ≠ '-' ∨ beyond s₁ = some ']' ∨ beyond s₁ = some '-')) := by
    intro t ht
    rw [beyond_followedBy hne ht (by decide) (by decide) (by decide),
      beyond_followedBy hne ht (by decide) (by decide) (by decide)]
  by_cases hend : c ≠ '-' ∨ beyond s₁ = some ']' ∨ beyond s₁ = some '-'
  · exact Enclosed.itemRanges.congr ((run_peekBeyond _ _).trans (by rw [if_pos hend])) fun i t ht =>
      (run_peekBeyond _ _).trans (by rw [if_pos ((hends t ht).2 hend)])
  · refine .congr ?_ ((run_peekBeyond _ _).trans (by rw [if_neg hend])) fun i t ht =>
      (run_peekBeyond _ _).trans (by rw [if_neg fun h => hend ((hends t ht).1 h)])
    refine .bind .advanceOr fun _ _ _ => .bind .classItem fun high _ _ => .bind .itemChar fun a _ _ =>
      .bind .itemChar fun b _ _ => ?_
    by_cases hlt : b.toNat < a.toNat
    · simp only [if_pos hlt]
      exact .throw_bind
    · simp only [if_neg hlt]
      exact .pure _

theorem Enclosed.classBody {n : Nat} {m : ι → Nat} (hm : ∀ i, n ≤ m i) :
    Enclosed (classBody n) (fun i => Reader.classBody (m i)) s := by
  induction n generalizing ι s m with
  | zero => exact .throw
  | succ n ih =>
    obtain ⟨m', rfl, hm'⟩ := exists_fuel hm
    refine .bind .space fun _ s₁ _ => .get (.peek (fun c cs hs => ?_) fun _ => Or.inl nofun)
    dsimp only
    split
    · exact .namedClass (fun set s' => .bind (ih fun x => hm' x.1) fun _ _ _ => .pure _) rfl
    split
    · exact .bind (.next (hs ▸ List.cons_ne_nil c cs)) fun _ _ _ => .pure _
    -- the second mark of an operator is in the text, or it is none
    have hsecond : ∀ {d : Char} {t : List Char}, Closing t → d ≠ ')' →
        ((s₁.followedBy t).rest.tail.head? = some d ↔ s₁.rest.tail.head? = some d) := by
      intro d t ht hd
      rw [show (s₁.followedBy t).rest.tail = s₁.rest.tail ++ t from
        List.tail_append_of_ne_nil (hs ▸ List.cons_ne_nil c cs)]
      exact ht.head_append hd
    by_cases hand : c = '&' ∧ s₁.rest.tail.head? = some '&'
    · rw [if_pos hand]
      exact .throw
    by_cases hdash : c = '-' ∧ s₁.rest.tail.head? = some '-'
    · rw [if_neg hand, if_pos hdash]
      exact .throw
    by_cases htilde : c = '~' ∧ s₁.rest.tail.head? = some '~'
    · rw [if_neg hand, if_neg hdash, if_pos htilde]
      exact .throw
    refine .congr (.bind .classRange fun _ _ _ => .bind (ih fun x => hm' x.1) fun _ _ _ => .pure _)
      (by rw [if_neg hand, if_neg hdash, if_neg htilde]) fun x t _ => ?_
    rw [if_neg fun h => hand ⟨h.1, (hsecond x.2.2 (by decide)).1 h.2⟩,
      if_neg fun h => hdash ⟨h.1, (hsecond x.2.2 (by decide)).1 h.2⟩,
      if_neg fun h => htilde ⟨h.1, (hsecond x.2.2 (by decide)).1 h.2⟩]

theorem Enclosed.leadingDashes {n : Nat} {m : ι → Nat} (hn : s.rest.length < n) (hm : ∀ i, n ≤ m i) :
    Enclosed (leadingDashes n) (fun i => Reader.leadingDashes (m i)) s := by
  induction n generalizing s m with
  | zero => exact absurd hn (Nat.not_lt_zero _)
  | succ n ih =>
    obtain ⟨m', rfl, hm'⟩ := exists_fuel hm
    refine .peek (fun c cs hs => ?_) fun _ => Or.inr ⟨[], if_neg nofun, fun i => ⟨if_neg nofun, if_neg (by decide)⟩⟩
    split
    · refine .bind .advanceOr fun _ s' h => .bind (ih ?_ hm') fun _ _ _ => .pure _
      exact Nat.lt_of_lt_of_le (run_advanceOr h).2 (Nat.le_of_lt_succ hn)
    · exact .pure []

theorem Enclosed.leadingBracket {dashes : CharSet} :
    Enclosed (leadingBracket dashes) (fun _ : ι => Reader.leadingBracket dashes) s := by
  refine .peek (fun c cs _ => ?_) fun _ => Or.inr ⟨[], if_neg nofun, fun i => ⟨if_neg nofun, if_neg ?_⟩⟩
  · split
    · exact .bind .advanceOr fun _ _ _ => .pure _
    · exact .pure []
  · exact fun h => absurd h.2 (by decide)

theorem Enclosed.classSet : Enclosed classSet (fun _ : ι => Reader.classSet) s := by
  have hfuel : ∀ t : List Char, s.rest.length + 1 ≤ (s.followedBy t).rest.length + 1 := by
    intro t
    rw [Reading.followedBy, List.length_append]
    omega
  refine .get (.bind (.leadingDashes (Nat.lt_succ_self _) fun x => hfuel x.2.1) fun dashes _ _ =>
    .bind .leadingBracket fun bracket _ _ => .bind (.classBody fun x => hfuel x.2.1) fun body _ _ => .get ?_)
  dsimp only [Reading.followedBy]
  split <;> exact .pure _

theorem Enclosed.charClass : Enclosed charClass (fun _ : ι => Reader.charClass) s := by
  refine .bind .advanceOr fun c _ _ => ?_
  split
  · exact .bind .advanceOr fun _ _ _ => .bind .classSet fun _ _ _ => .pure _
  · exact .bind .classSet fun _ _ _ => .pure _

/-! ## Repetitions -/

theorem Enclosed.lazyMark (hs : s.rest = c :: t) :
    Enclosed (lazyMark (some c)) (fun _ : ι => Reader.lazyMark (some c)) s := by
  by_cases hc : c = '?'
  · subst hc
    exact .next (hs ▸ List.cons_ne_nil _ t)
  · have hskip : Reader.lazyMark (some c) = Pure.pure () := by
      unfold Reader.lazyMark
      split
      · rename_i heq
        exact absurd (Option.some.inj heq) hc
      · rfl
    rw [hskip]
    exact .pure ()

theorem Enclosed.mark (hs : s.rest ≠ []) : Enclosed (mark c) (fun _ : ι => Reader.mark c) s := by
  refine .bind (.next hs) fun _ s₁ _ => .peek (fun d cs hd => .bind (.lazyMark hd) fun _ _ _ => .pure _) fun _ =>
    Or.inr ⟨_, rfl, fun i => ⟨rfl, rfl⟩⟩

theorem Enclosed.lastCount : Enclosed (lastCount c) (fun _ : ι => Reader.lastCount c) s := by
  unfold Reader.lastCount
  split
  · exact .pure none
  · exact .map .decimal

theorem Enclosed.maxCount {min : Nat} : Enclosed (maxCount min) (fun _ : ι => Reader.maxCount min) s := by
  refine .peek (fun c cs hs => ?_) fun _ => Or.inl nofun
  dsimp only
  split
  · exact .bind .advanceOr fun d _ _ => .bind .lastCount fun max _ _ =>
      .peek (fun _ _ _ => .pure max) fun _ => Or.inl nofun
  · exact .pure _

theorem Enclosed.counts : Enclosed counts (fun _ : ι => Reader.counts) s := by
  refine .bind .advanceOr fun _ _ _ => .bind .decimal fun min _ _ => .bind .maxCount fun max s₁ _ =>
    .peek (fun c cs hs => ?_) fun _ => Or.inl nofun
  split
  · exact .throw
  · have hne : s₁.rest ≠ [] := hs ▸ List.cons_ne_nil c cs
    by_cases hmax : max.any (· < min)
    · simp only [if_pos hmax]
      exact .advance hne (fun d ds s₂ hd _ => .bind (.lazyMark hd) fun _ _ _ => .throw) fun s₂ _ => Or.inl nofun
    · simp only [if_neg hmax]
      exact .advance hne (fun d ds s₂ hd _ => .bind (.lazyMark hd) fun _ _ _ => .pure _) fun s₂ _ =>
        Or.inr ⟨_, rfl, fun i => ⟨rfl, rfl⟩⟩

/-! ## Groups -/

/-- flags end before what follows -/
theorem readFlags_append {cs rest seen seen' : List Char} {flags flags' : Flags}
    (h : readFlags cs flags seen = .ok (flags', seen', rest)) (t : List Char) :
    rest ≠ [] ∧ readFlags (cs ++ t) flags seen = .ok (flags', seen', rest ++ t) := by
  induction cs generalizing flags seen with
  | nil => cases h
  | cons c cs ih =>
    rw [readFlags] at h
    rw [List.cons_append, readFlags]
    split at h
    · rename_i hc
      rw [if_pos hc]
      split at h
      · cases h
      · rename_i hseen
        rw [if_neg hseen]
        obtain ⟨rfl, rfl, rfl⟩ : flags = flags' ∧ seen = seen' ∧ c :: cs = rest := by
          simpa only [Prod.mk.injEq] using pure_eq_ok.1 h
        exact ⟨List.cons_ne_nil c cs, rfl⟩
    · rename_i hc
      rw [if_neg hc]
      split at h
      · rename_i hdash
        rw [if_pos hdash]
        split at h
        · cases h
        · rename_i hseen
          rw [if_neg hseen]
          exact ih h
      · rename_i hdash
        rw [if_neg hdash]
        cases hset : setFlag flags (!seen.contains '-') c with
        | none =>
          rw [hset] at h
          cases h
        | some flags₁ =>
          rw [hset] at h
          dsimp only at h ⊢
          split at h
          · cases h
          · rename_i hseen
            rw [if_neg hseen]
            exact ih h

theorem Enclosed.groupName : Enclosed groupName (fun _ : ι => Reader.groupName) s := by
  intro u s' h
  rw [Reader.groupName, run_get_bind] at h
  dsimp only at h
  by_cases hne : s.rest = []
  · rw [if_pos hne] at h
    cases h
  rw [if_neg hne] at h
  split at h
  · cases h
  rename_i hvalid
  split at h
  · cases h
  rename_i hrest
  split at h
  · cases h
  rename_i hname
  split at h
  · cases h
  rename_i hnew
  obtain ⟨rfl, rfl⟩ := Prod.mk.inj (Except.ok.inj h)
  refine .kept (fun hs => absurd hs hne) fun i t ht => ?_
  obtain ⟨htake, hdrop⟩ := span_append hrest t
  have hne' : s.rest ++ t ≠ [] := fun h => hne (List.append_eq_nil_iff.1 h).1
  have hrest' : s.rest.dropWhile (· != '>') ++ t ≠ [] := fun h => hrest (List.append_eq_nil_iff.1 h).1
  rw [Reader.groupName, run_get_bind]
  simp only [Reading.followedBy, htake, hdrop, if_neg hne', if_neg hvalid, if_neg hrest', if_neg hname, if_neg hnew,
    List.tail_append_of_ne_nil hrest]
  rfl

theorem readGroupFlags_append {cs rest : List Char} {flags flags' : Flags} {o : Opening}
    (h : readGroupFlags cs flags = .ok (o, flags', rest)) :
    cs ≠ [] ∧ (o = .flagsOnly → rest ≠ []) ∧ ∀ t, readGroupFlags (cs ++ t) flags = .ok (o, flags', rest ++ t) := by
  by_cases hcs : cs = []
  · rw [readGroupFlags, if_pos hcs] at h
    cases h
  rw [readGroupFlags, if_neg hcs] at h
  obtain ⟨⟨flags₁, seen, rest₁⟩, hread, h⟩ := bind_eq_ok.1 h
  have hrest₁ := (readFlags_append hread []).1
  have hrun : ∀ t, readGroupFlags (cs ++ t) flags =
      if rest₁.head? = some ')' then if seen = [] then throw .emptyFlags else pure (.flagsOnly, flags₁, rest₁ ++ t)
      else pure (.plain, flags₁, rest₁.tail ++ t) := by
    intro t
    have hcs' : cs ++ t ≠ [] := fun h => hcs (List.append_eq_nil_iff.1 h).1
    rw [readGroupFlags, if_neg hcs', (readFlags_append hread t).2, ← List.head?_append_of_ne_nil rest₁ hrest₁,
      ← List.tail_append_of_ne_nil hrest₁]
    rfl
  refine ⟨hcs, ?_⟩
  simp only [hrun]
  by_cases hclosed : rest₁.head? = some ')'
  · by_cases hseen : seen = []
    · simp only [if_pos hclosed, if_pos hseen] at h
      cases h
    · simp only [if_pos hclosed, if_neg hseen] at h ⊢
      obtain ⟨rfl, rfl, rfl⟩ : .flagsOnly = o ∧ flags₁ = flags' ∧ rest₁ = rest := by
        simpa only [Prod.mk.injEq] using pure_eq_ok.1 h
      exact ⟨fun _ => hrest₁, fun t => rfl⟩
  · simp only [if_neg hclosed] at h ⊢
    obtain ⟨rfl, rfl, rfl⟩ : .plain = o ∧ flags₁ = flags' ∧ rest₁.tail = rest := by
      simpa only [Prod.mk.injEq] using pure_eq_ok.1 h
    exact ⟨nofun, fun t => rfl⟩

theorem run_groupFlags {o : Opening} : StateT.run groupFlags s = .ok (o, s') ↔ ∃ flags rest,
    readGroupFlags s.rest s.flags = .ok (o, flags, rest) ∧ s' = { s with rest := rest, flags := flags } := by
  have hlift : ∀ x : Except Fault (Opening × Flags × List Char), StateT.run
      (liftM x >>= fun y : Opening × Flags × List Char => do
        set { s with rest := y.2.2, flags := y.2.1 }
        Pure.pure y.1 : Reader Opening) s = .ok (o, s') ↔
      ∃ flags rest, x = .ok (o, flags, rest) ∧ s' = { s with rest := rest, flags := flags } := by
    intro x
    cases x with
    | error err => exact iff_of_false nofun (by rintro ⟨_, _, ⟨⟩, _⟩)
    | ok y =>
      obtain ⟨o', flags, rest⟩ := y
      constructor
      · intro h
        obtain ⟨rfl, rfl⟩ := Prod.mk.inj (Except.ok.inj h)
        exact ⟨flags, rest, rfl, rfl⟩
      · rintro ⟨_, _, h, rfl⟩
        obtain ⟨rfl, rfl, rfl⟩ : o' = o ∧ flags = _ ∧ rest = _ := by simpa only [Prod.mk.injEq] using Except.ok.inj h
        rfl
  exact hlift (readGroupFlags s.rest s.flags)

theorem Enclosed.groupFlags : Enclosed groupFlags (fun _ : ι => Reader.groupFlags) s := by
  intro o s' h
  obtain ⟨flags, rest, hread, rfl⟩ := run_groupFlags.1 h
  obtain ⟨hne, -, happ⟩ := readGroupFlags_append hread
  exact .kept (fun hs => absurd hs hne) fun i t _ => run_groupFlags.2 ⟨flags, rest ++ t, happ t, rfl⟩

theorem Enclosed.opening (hs : s.rest ≠ []) : Enclosed opening (fun _ : ι => Reader.opening) s := by
  refine .pass hs fun _ _ => .bind (.accept (by decide)) fun a _ _ => .bind (.accept (by decide)) fun b _ _ =>
    .bind (.accept (by decide)) fun c _ _ => .bind (.accept (by decide)) fun d _ _ => ?_
  split
  · exact .throw
  refine .bind (.accept (by decide)) fun a _ _ => .bind (.accept (by decide)) fun b _ _ => ?_
  split
  · exact .bind .groupName fun _ _ _ => .pure _
  refine .bind (.accept (by decide)) fun a _ _ => ?_
  split
  · exact .groupFlags
  · exact .pure _

/-- a group that is for flags alone is not passed yet -/
theorem rest_of_flagsOnly (h : StateT.run opening s = .ok (.flagsOnly, s')) : s'.rest ≠ [] := by
  obtain ⟨_, _, -, h⟩ := run_bind_eq_ok.1 h
  obtain ⟨_, _, -, h⟩ := run_bind_eq_ok.1 h
  obtain ⟨_, _, -, h⟩ := run_bind_eq_ok.1 h
  obtain ⟨_, _, -, h⟩ := run_bind_eq_ok.1 h
  obtain ⟨_, _, -, h⟩ := run_bind_eq_ok.1 h
  split at h
  · cases h
  obtain ⟨_, _, -, h⟩ := run_bind_eq_ok.1 h
  obtain ⟨_, _, -, h⟩ := run_bind_eq_ok.1 h
  split at h
  · obtain ⟨_, _, -, h⟩ := run_bind_eq_ok.1 h
    cases h
  obtain ⟨_, _, -, h⟩ := run_bind_eq_ok.1 h
  split at h
  · obtain ⟨flags, rest, hread, rfl⟩ := run_groupFlags.1 h
    exact (readGroupFlags_append hread).2.1 rfl
  · cases h

/-! ## Expressions -/

theorem Enclosed.times (hs : s.rest ≠ []) : Enclosed (times c) (fun _ : ι => Reader.times c) s := by
  unfold Reader.times
  split
  · exact .counts
  · exact .mark hs

theorem Enclosed.repetition {items : List Piece} (hs : s.rest ≠ []) :
    Enclosed (repetition c items) (fun _ : ι => Reader.repetition c items) s := by
  cases items with
  | nil => exact .throw_bind
  | cons p ps =>
    refine .bind (.pure (p, ps)) fun _ s₁ h => .bind (.times ?_) fun _ _ _ => .pure _
    exact (Prod.mk.inj (Except.ok.inj h)).2 ▸ hs

theorem Enclosed.atom (hs : s.rest ≠ []) : Enclosed (atom c) (fun _ : ι => Reader.atom c) s := by
  unfold Reader.atom
  split
  · exact .charClass
  · refine .bind (.next hs) fun _ _ _ => ?_
    split
    · exact .escape
    split
    · exact .dot
    split
    · exact .caret
    split
    · exact .dollar
    · exact .letter

theorem Enclosed.closeGroup {flags : Flags} :
    Enclosed (closeGroup flags) (fun _ : ι => Reader.closeGroup flags) s := by
  refine .peek (fun c cs hs => ?_) fun _ => Or.inl nofun
  split
  · exact .throw
  · refine .bind (.of_run { s with flags := flags } rfl id fun _ _ _ => rfl) fun _ s' h => .next ?_
    obtain ⟨-, rfl⟩ := Prod.mk.inj (Except.ok.inj h)
    exact hs ▸ List.cons_ne_nil c cs

/-- there are too many groups, however the text goes on -/
theorem Enclosed.too_nested {f : Reader α} {g : ι → Reader α} (hg : ∀ i s, StateT.run (g i) s = .error .tooNested) :
    Enclosed f g s :=
  fun _ _ _ => .tooNested fun i _ _ => hg i _

/-- **An expression** in a group: it goes one level deeper, and that may be too deep. -/
theorem Enclosed.expression {n depth : Nat} {done items : List Piece} {m : ι → Nat} (hm : ∀ i, n ≤ m i) :
    Enclosed (expression n depth done items) (fun i => Reader.expression (m i) (depth + 1) done items) s := by
  induction n generalizing ι s depth done items m with
  | zero => exact .throw
  | succ n ih =>
    obtain ⟨m', rfl, hm'⟩ := exists_fuel hm
    refine .bind .space fun _ s₁ _ => .peek (fun c cs hs => ?_) fun _ => Or.inr ⟨_, rfl, fun i => ⟨rfl, rfl⟩⟩
    have hne : s₁.rest ≠ [] := hs ▸ List.cons_ne_nil c cs
    dsimp only
    by_cases hopen : c = '('
    · simp only [if_pos hopen]
      refine .get (.bind (.opening hne) fun start s₂ hstart => ?_)
      by_cases hflags : start = .flagsOnly
      · simp only [if_pos hflags]
        exact .bind (.next (rest_of_flagsOnly (hflags ▸ hstart))) fun _ _ _ => ih fun x => hm' x.1
      simp only [if_neg hflags]
      by_cases hdeep : maxNesting < depth + 1
      · simp only [if_pos hdeep]
        exact .throw
      simp only [if_neg hdeep]
      by_cases hdeeper : maxNesting < depth + 1 + 1
      · simp only [if_pos hdeeper]
        exact .too_nested fun _ _ => rfl
      simp only [if_neg hdeeper]
      exact .bind (ih fun x => hm' x.1) fun body _ _ => .bind .closeGroup fun _ _ _ => ih fun x => hm' x.1
    simp only [if_neg hopen]
    by_cases hclose : c = ')'
    · simp only [if_pos hclose, Nat.add_eq_zero_iff, Nat.one_ne_zero, and_false, if_false]
      split
      · exact .throw
      · exact .pure _
    simp only [if_neg hclose]
    split
    · exact .bind (.next hne) fun _ _ _ => ih hm'
    split
    · exact .bind (.repetition hne) fun _ _ _ => ih hm'
    · exact .bind (.atom hne) fun _ _ _ => ih hm'

end Reader

end ConceptGraph.Regex
