/-
What is read of a text by itself, and where the end of a group follows it.

- `Closing`: what can follow. `Enclosed`: one reader gets from a text in a group what another gets from the text alone. Then
  what follows is left, or has been taken for a part of a comment, or the reader has found too many groups.
- `Enclosed.bind`, `Enclosed.peek`, `Enclosed.get`: what is read one after the other.
- `Enclosed.space`, `Enclosed.advance`, `Enclosed.run`: moving on in the text. `Enclosed.decimal`, `Enclosed.escape`: numbers
  and single characters.
-/
import ConceptGraph.Proofs.Core.Outcomes
import ConceptGraph.Regex.Parser

namespace ConceptGraph.Regex

open Text

/-- what follows a text: nothing, the end of a group around it, or that and an anchor -/
inductive Closing : List Char → Prop
  | nothing : Closing []
  | group : Closing [')']
  | anchored : Closing [')', '$']

theorem Closing.head {t : List Char} (ht : Closing t) : t.head? = none ∨ t.head? = some ')' := by
  cases ht
  · exact Or.inl rfl
  · exact Or.inr rfl
  · exact Or.inr rfl

theorem Closing.head_ne {t : List Char} (ht : Closing t) {c : Char} (hc : c ≠ ')') : t.head? ≠ some c := by
  intro h
  rcases ht.head with hnone | hsome
  · rw [hnone] at h
    cases h
  · exact hc (Option.some.inj (h.symm.trans hsome))

/-- a character that is not the parenthesis comes next if and only if it does so in the text alone -/
theorem Closing.head_append {t cs : List Char} (ht : Closing t) {c : Char} (hc : c ≠ ')') :
    (cs ++ t).head? = some c ↔ cs.head? = some c := by
  cases cs with
  | nil => exact iff_of_false (ht.head_ne hc) nofun
  | cons d cs => rfl

/-- the same, with more text behind -/
def Reading.followedBy (s : Reading) (t : List Char) : Reading := { s with rest := s.rest ++ t }

theorem Reading.followedBy_nil (s : Reading) : s.followedBy [] = s := by
  rw [followedBy, List.append_nil]

namespace Reader

variable {α β ι : Type} {s s' : Reading} {t : List Char} {a : α} {b : β} {e : Fault}

/-- what comes of `f'`, if `a` and `s'` come of reading the text alone -/
inductive Ends (f' : ι → Reader α) (s : Reading) (a : α) (s' : Reading) : Prop
  | kept (hrest : s.rest = [] → s'.rest = [])
      (h : ∀ i t, Closing t → StateT.run (f' i) (s.followedBy t) = .ok (a, s'.followedBy t))
  | taken (hrest : s'.rest = []) (h : ∀ i t, Closing t → StateT.run (f' i) (s.followedBy t) = .ok (a, s'))
  | tooNested (h : ∀ i t, Closing t → StateT.run (f' i) (s.followedBy t) = .error .tooNested)

/-- the readers `f'` get from a text in a group what `f` gets from the text alone -/
def Enclosed (f : Reader α) (f' : ι → Reader α) (s : Reading) : Prop :=
  ∀ a s', StateT.run f s = .ok (a, s') → Ends f' s a s'

theorem run_bind_eq_ok {f : Reader α} {g : α → Reader β} : StateT.run (f >>= g) s = .ok (b, s') ↔
    ∃ a s₁, StateT.run f s = .ok (a, s₁) ∧ StateT.run (g a) s₁ = .ok (b, s') := by
  rw [StateT.run_bind, bind_eq_ok, Prod.exists]

theorem run_bind_of_ok {f : Reader α} {g : α → Reader β} (hf : StateT.run f s = .ok (a, s')) :
    StateT.run (f >>= g) s = StateT.run (g a) s' := by
  rw [StateT.run_bind, hf]
  rfl

theorem run_bind_of_error {f : Reader α} {g : α → Reader β} (hf : StateT.run f s = .error e) :
    StateT.run (f >>= g) s = .error e := by
  rw [StateT.run_bind, hf]
  rfl

/-- it comes of other readers as well, if they go on as `f'` does, from a place that is no nearer to the end -/
theorem Ends.through {κ : Type} {f' : ι → Reader α} {k' : κ → Reader α} {s₀ : Reading} (h : Ends f' s a s')
    (hrest : s₀.rest = [] → s.rest = [])
    (hrun : ∀ i t, Closing t → ∃ j, StateT.run (k' i) (s₀.followedBy t) = StateT.run (f' j) (s.followedBy t)) :
    Ends k' s₀ a s' := by
  have hsame : ∀ {r : List Char → Except Fault (α × Reading)},
      (∀ j t, Closing t → StateT.run (f' j) (s.followedBy t) = r t) →
      ∀ i t, Closing t → StateT.run (k' i) (s₀.followedBy t) = r t := by
    intro r hr i t ht
    obtain ⟨j, hj⟩ := hrun i t ht
    rw [hj, hr j t ht]
  cases h with
  | kept hnil h => exact .kept (fun hs => hnil (hrest hs)) (hsame h)
  | taken hnil h => exact .taken hnil (hsame h)
  | tooNested h => exact .tooNested (hsame h)

theorem run_peek_bind {g : Option Char → Reader α} : StateT.run (peek >>= g) s = StateT.run (g s.rest.head?) s := rfl

theorem run_get_bind {g : Reading → Reader α} : StateT.run (MonadState.get >>= g) s = StateT.run (g s) s := rfl

namespace Enclosed

variable {f : Reader α} {f' : ι → Reader α} {g : α → Reader β} {g' : ι → α → Reader β}

theorem of_run (s' : Reading) (hrun : StateT.run f s = .ok (a, s')) (hrest : s.rest = [] → s'.rest = [])
    (h : ∀ i t, Closing t → StateT.run (f' i) (s.followedBy t) = .ok (a, s'.followedBy t)) : Enclosed f f' s := by
  intro a' s'' hrun'
  obtain ⟨rfl, rfl⟩ := Prod.mk.inj (Except.ok.inj (hrun.symm.trans hrun'))
  exact .kept hrest h

theorem congr {k : Reader α} {k' : ι → Reader α} (hk : Enclosed k k' s) (h : StateT.run f s = StateT.run k s)
    (h' : ∀ i t, Closing t → StateT.run (f' i) (s.followedBy t) = StateT.run (k' i) (s.followedBy t)) :
    Enclosed f f' s :=
  fun a s' hrun => (hk a s' (h.symm.trans hrun)).through id fun i t ht => ⟨i, h' i t ht⟩

theorem pure (a : α) : Enclosed (Pure.pure a) (fun _ : ι => Pure.pure a) s :=
  of_run s rfl id fun _ _ _ => rfl

theorem throw : Enclosed (throw e) f' s := nofun

theorem throw_bind {g : β → Reader α} : Enclosed (MonadExcept.throw e >>= g) f' s := nofun

/-- **One after the other:** what a comment has taken is gone for what comes later. -/
theorem bind (hf : Enclosed f f' s) (hg : ∀ a s', StateT.run f s = .ok (a, s') → Enclosed (g a) (fun i => g' i a) s') :
    Enclosed (f >>= g) (fun i => f' i >>= g' i) s := by
  intro b s'' hrun
  obtain ⟨a, s', hfa, hga⟩ := run_bind_eq_ok.1 hrun
  have hends' := hg a s' hfa b s'' hga
  cases hf a s' hfa with
  | kept hrest h =>
    exact hends'.through hrest fun i t ht => ⟨i, run_bind_of_ok (h i t ht)⟩
  | taken hnil h =>
    -- nothing follows any more
    have hlast : ∀ {r : Except Fault (β × Reading)}, (∀ i, StateT.run (g' i a) (s'.followedBy []) = r) →
        ∀ i t, Closing t → StateT.run (f' i >>= g' i) (s.followedBy t) = r := by
      intro r hr i t ht
      rw [run_bind_of_ok (h i t ht), ← hr i, Reading.followedBy_nil]
    cases hends' with
    | kept hrest' h' => exact .taken (hrest' hnil) (hlast fun i => s''.followedBy_nil ▸ h' i [] .nothing)
    | taken hnil' h' => exact .taken hnil' (hlast fun i => h' i [] .nothing)
    | tooNested h' => exact .tooNested (hlast fun i => h' i [] .nothing)
  | tooNested h => exact .tooNested fun i t ht => run_bind_of_error (h i t ht)

theorem map {h : α → β} (hf : Enclosed f f' s) : Enclosed (h <$> f) (fun i => h <$> f' i) s := by
  simp only [map_eq_pure_bind]
  exact hf.bind fun a s' _ => .pure (h a)

/-- the rest may look at all that is left, and at what follows -/
theorem get {g : Reading → Reader β} {g' : ι → Reading → Reader β}
    (hg : Enclosed (g s) (fun x : ι × { t // Closing t } => g' x.1 (s.followedBy x.2.1)) s) :
    Enclosed (get >>= g) (fun i => get >>= g' i) s :=
  fun b s' hrun => (hg b s' hrun).through id fun i t ht => ⟨(i, ⟨t, ht⟩), rfl⟩

/-- the rest may look at the next character. At the end of the text it stops. -/
theorem peek {g : Option Char → Reader β} {g' : ι → Option Char → Reader β}
    (hsome : ∀ c cs, s.rest = c :: cs → Enclosed (g (some c)) (fun i => g' i (some c)) s)
    (hnone : s.rest = [] → (∀ r, StateT.run (g none) s ≠ .ok r) ∨
      ∃ b, g none = Pure.pure b ∧ ∀ i, g' i none = Pure.pure b ∧ g' i (some ')') = Pure.pure b) :
    Enclosed (Reader.peek >>= g) (fun i => Reader.peek >>= g' i) s := by
  cases hs : s.rest with
  | nil =>
    have hpeek : StateT.run (Reader.peek >>= g) s = StateT.run (g none) s := by
      rw [run_peek_bind, hs, List.head?_nil]
    rcases hnone hs with hstop | ⟨b, hb, hb'⟩
    · intro b s' hrun
      exact absurd (hpeek.symm.trans hrun) (hstop _)
    · refine of_run s (hpeek.trans (by rw [hb]; rfl)) id fun i t ht => ?_
      rw [run_peek_bind, Reading.followedBy, hs, List.nil_append]
      rcases ht.head with h | h
      · rw [h, (hb' i).1]
        rfl
      · rw [h, (hb' i).2]
        rfl
  | cons c cs =>
    have hpeek : ∀ (t : List Char) (k : Option Char → Reader β),
        StateT.run (Reader.peek >>= k) (s.followedBy t) = StateT.run (k (some c)) (s.followedBy t) := by
      intro t k
      rw [run_peek_bind, Reading.followedBy, hs, List.cons_append, List.head?_cons]
    exact (hsome c cs hs).congr (by simpa only [s.followedBy_nil] using hpeek [] g) fun i t _ => hpeek t (g' i)

/-- what has been read may turn out to be something else, and is left to be read again -/
theorem restoring {p : α → Bool} {g : α → Reader β} (b : β) (hf : Enclosed f (fun _ : ι => f) s)
    (hrest : ∀ a s', StateT.run f s = .ok (a, s') → s'.rest ≠ []) (hg : ∀ a s', Enclosed (g a) (fun _ : ι => g a) s') :
    Enclosed (MonadState.get >>= fun s => f >>= fun a => if p a then set s >>= fun _ => Pure.pure b else g a)
      (fun _ : ι => MonadState.get >>= fun s => f >>= fun a => if p a then set s >>= fun _ => Pure.pure b else g a)
      s := by
  intro b' s'' hrun
  rw [run_get_bind] at hrun
  obtain ⟨a, s', hfa, h⟩ := run_bind_eq_ok.1 hrun
  cases hf a s' hfa with
  | taken hs' _ => exact absurd hs' (hrest a s' hfa)
  | tooNested hmore => exact .tooNested fun i t ht => run_get_bind.trans (run_bind_of_error (hmore i t ht))
  | kept hnil hkept =>
    by_cases hp : p a
    · rw [if_pos hp] at h
      obtain ⟨rfl, rfl⟩ := Prod.mk.inj (Except.ok.inj h)
      refine .kept id fun i t ht => ?_
      rw [run_get_bind, run_bind_of_ok (hkept i t ht), if_pos hp]
      rfl
    · rw [if_neg hp] at h
      refine (hg a s' b' s'' h).through (fun hs => absurd (hnil hs) (hrest a s' hfa)) fun i t ht => ⟨i, ?_⟩
      rw [run_get_bind, run_bind_of_ok (hkept i t ht), if_neg hp]

end Enclosed

end Reader

/-! ## Moving on -/

theorem dropSpacing_length_le (inComment : Bool) (cs : List Char) :
    (dropSpacing inComment cs).length ≤ cs.length := by
  induction cs generalizing inComment with
  | nil => cases inComment <;> exact Nat.le_refl 0
  | cons c cs ih =>
    have hle : ∀ b, (dropSpacing b cs).length ≤ (c :: cs).length := fun b => Nat.le_succ_of_le (ih b)
    cases inComment with
    | true => exact hle _
    | false =>
      unfold dropSpacing
      split
      · exact hle _
      · split
        · exact hle _
        · exact Nat.le_refl _

/-- spacing ends with the text, or a comment takes what follows as well -/
theorem dropSpacing_append (inComment : Bool) (cs : List Char) :
    (∀ t, Closing t → dropSpacing inComment (cs ++ t) = dropSpacing inComment cs ++ t) ∨
      dropSpacing inComment cs = [] ∧ ∀ t, Closing t → dropSpacing inComment (cs ++ t) = [] := by
  induction cs generalizing inComment with
  | nil =>
    cases inComment with
    | true =>
      refine Or.inr ⟨rfl, fun t ht => ?_⟩
      cases ht <;> rfl
    | false =>
      refine Or.inl fun t ht => ?_
      cases ht <;> rfl
  | cons c cs ih =>
    cases inComment with
    | true => exact ih (c != '\n')
    | false =>
      simp only [List.cons_append, dropSpacing]
      split
      · exact ih false
      · split
        · exact ih true
        · exact Or.inl fun t ht => rfl

namespace Reader

variable {α β ι : Type} {s s' : Reading} {a : α} {e : Fault} {c : Char}

/-- nothing is read at the end of a text but nothing -/
theorem Enclosed.next (hs : s.rest ≠ []) : Enclosed next (fun _ : ι => Reader.next) s := by
  refine .of_run { s with rest := s.rest.tail } rfl (fun h => absurd h hs) fun i t ht => ?_
  show Except.ok ((), { s with rest := (s.rest ++ t).tail }) = _
  rw [List.tail_append_of_ne_nil hs]
  rfl

theorem run_space (s : Reading) : StateT.run space s =
    .ok ((), if s.flags.spaced then { s with rest := dropSpacing false s.rest } else s) := rfl

theorem Enclosed.space : Enclosed space (fun _ : ι => Reader.space) s := by
  by_cases hx : s.flags.spaced
  · intro u s' h
    rw [run_space, if_pos hx] at h
    obtain ⟨-, rfl⟩ := Prod.mk.inj (Except.ok.inj h)
    have hrun : ∀ t, StateT.run Reader.space (s.followedBy t) =
        .ok (u, { s with rest := dropSpacing false (s.rest ++ t) }) := by
      intro t
      rw [run_space, if_pos (show (s.followedBy t).flags.spaced from hx)]
      rfl
    rcases dropSpacing_append false s.rest with hkept | ⟨hnil, htaken⟩
    · refine .kept (fun hs => ?_) fun i t ht => by rw [hrun, hkept t ht]; rfl
      rw [hs]
      rfl
    · exact .taken hnil fun i t ht => by rw [hrun, htaken t ht, hnil]
  · refine .of_run s (by rw [run_space, if_neg hx]) id fun i t ht => ?_
    rw [run_space, if_neg (show ¬ (s.followedBy t).flags.spaced from hx)]

theorem run_space_le {u : Unit} (h : StateT.run space s = .ok (u, s')) : s'.rest.length ≤ s.rest.length := by
  rw [run_space] at h
  obtain ⟨-, rfl⟩ := Prod.mk.inj (Except.ok.inj h)
  split
  · exact dropSpacing_length_le false s.rest
  · exact Nat.le_refl _

section Advance

variable {g : Option Char → Reader β} {g' : ι → Option Char → Reader β} {f : Reader β} {f' : ι → Reader β}

theorem run_advance (s : Reading) : ∃ s', StateT.run advance s = .ok (s'.rest.head?, s') ∧
    s'.rest.length ≤ s.rest.tail.length := by
  refine ⟨if s.flags.spaced then { s with rest := dropSpacing false s.rest.tail } else { s with rest := s.rest.tail },
    rfl, ?_⟩
  split
  · exact dropSpacing_length_le false s.rest.tail
  · exact Nat.le_refl _

theorem advance_bind : (advance >>= g) = next >>= fun _ => space >>= fun _ => peek >>= g := by
  simp only [advance, bind_assoc]

/-- a reader that has to pass a character stops at the end of the text -/
theorem run_advance_nil (hs : s.rest = []) (hstop : ∀ s' r, StateT.run (g none) s' ≠ .ok r) (r : β × Reading) :
    StateT.run (advance >>= g) s ≠ .ok r := by
  obtain ⟨s', hrun, hle⟩ := run_advance s
  rw [hs, List.tail_nil, List.length_nil, Nat.le_zero, List.length_eq_zero_iff] at hle
  rw [run_bind_of_ok hrun, hle, List.head?_nil]
  exact hstop s' r

theorem Enclosed.next_space (hs : s.rest ≠ []) (hf : ∀ s', s'.rest.length < s.rest.length → Enclosed f f' s') :
    Enclosed (Reader.next >>= fun _ => Reader.space >>= fun _ => f)
      (fun i => Reader.next >>= fun _ => Reader.space >>= fun _ => f' i) s := by
  refine .bind (.next hs) fun u s₁ h₁ => .bind .space fun u s₂ h₂ => hf s₂ (Nat.lt_of_le_of_lt (run_space_le h₂) ?_)
  obtain ⟨-, rfl⟩ := Prod.mk.inj (Except.ok.inj h₁)
  show s.rest.tail.length < s.rest.length
  rw [List.length_tail]
  exact Nat.sub_lt (List.length_pos_of_ne_nil hs) Nat.one_pos

/-- the rest may look at the character that comes after the next one, and fewer are left -/
theorem Enclosed.advance (hs : s.rest ≠ [])
    (hsome : ∀ c cs s', s'.rest = c :: cs → s'.rest.length < s.rest.length →
      Enclosed (g (some c)) (fun i => g' i (some c)) s')
    (hnone : ∀ s', s'.rest = [] → (∀ r, StateT.run (g none) s' ≠ .ok r) ∨
      ∃ b, g none = Pure.pure b ∧ ∀ i, g' i none = Pure.pure b ∧ g' i (some ')') = Pure.pure b) :
    Enclosed (Reader.advance >>= g) (fun i => Reader.advance >>= g' i) s := by
  simp only [advance_bind]
  exact .next_space hs fun s' hlt => .peek (fun c cs hc => hsome c cs s' hc hlt) (hnone s')

/-- the rest does not look at the character -/
theorem Enclosed.pass (hs : s.rest ≠ []) (hf : ∀ s', s'.rest.length < s.rest.length → Enclosed f f' s') :
    Enclosed (Reader.advance >>= fun _ => f) (fun i => Reader.advance >>= fun _ => f' i) s := by
  simp only [advance_bind]
  exact .next_space hs hf

/-- the rest has a character, or stops -/
theorem Enclosed.advance_or_stop
    (hsome : ∀ c cs s', s'.rest = c :: cs → s'.rest.length < s.rest.length →
      Enclosed (g (some c)) (fun i => g' i (some c)) s')
    (hnone : g none = MonadExcept.throw e) :
    Enclosed (Reader.advance >>= g) (fun i => Reader.advance >>= g' i) s := by
  have hstop : ∀ s' r, StateT.run (g none) s' ≠ .ok r := by
    rw [hnone]
    exact nofun
  by_cases hs : s.rest = []
  · exact fun b s' h => absurd h (run_advance_nil hs hstop (b, s'))
  · exact .advance hs hsome fun s' _ => Or.inl (hstop s')

theorem run_advanceOr (h : StateT.run (advanceOr e) s = .ok (c, s')) :
    (∃ cs, s'.rest = c :: cs) ∧ s'.rest.length < s.rest.length := by
  obtain ⟨s₁, hrun, hle⟩ := run_advance s
  rw [advanceOr, run_bind_of_ok hrun] at h
  cases hcs : s₁.rest with
  | nil =>
    rw [hcs] at h
    cases h
  | cons d cs =>
    rw [hcs] at h
    obtain ⟨rfl, rfl⟩ := Prod.mk.inj (Except.ok.inj h)
    rw [hcs, List.length_tail] at hle
    refine ⟨⟨cs, hcs⟩, ?_⟩
    rw [hcs]
    simp only [List.length_cons] at hle ⊢
    omega

theorem Enclosed.advanceOr : Enclosed (advanceOr e) (fun _ : ι => Reader.advanceOr e) s :=
  .advance_or_stop (fun c _ _ _ _ => .pure c) rfl

end Advance

/-- what is accepted has no parenthesis, so it does not lie across the end of the text -/
theorem isPrefixOf_append {ds cs t : List Char} (ht : Closing t) (hds : ')' ∉ ds) :
    ds.isPrefixOf (cs ++ t) = ds.isPrefixOf cs := by
  induction ds generalizing cs with
  | nil => rfl
  | cons d ds ih =>
    rw [List.mem_cons, not_or] at hds
    cases cs with
    | nil =>
      have hd : (d == ')') = false := beq_eq_false_iff_ne.2 (Ne.symm hds.1)
      cases ht <;> simp [List.isPrefixOf, hd]
    | cons c cs => simp only [List.cons_append, List.isPrefixOf, ih hds.2]

theorem Enclosed.accept {ds : List Char} (hds : ')' ∉ ds) : Enclosed (accept ds) (fun _ : ι => Reader.accept ds) s := by
  have hrun : ∀ s : Reading, StateT.run (Reader.accept ds) s = if ds.isPrefixOf s.rest then
      .ok (true, { s with rest := s.rest.drop ds.length }) else .ok (false, s) := by
    intro s
    show StateT.run (if ds.isPrefixOf s.rest then _ else _) s = _
    split <;> rfl
  by_cases hpre : ds.isPrefixOf s.rest
  · refine .of_run _ ((hrun s).trans (if_pos hpre)) (fun h => ?_) fun i t ht => (hrun _).trans ?_
    · rw [h, List.drop_nil]
    · rw [Reading.followedBy, isPrefixOf_append ht hds, if_pos hpre,
        List.drop_append_of_le_length (List.isPrefixOf_iff_prefix.1 hpre).length_le]
      rfl
  · refine .of_run s ((hrun s).trans (if_neg hpre)) id fun i t ht => (hrun _).trans ?_
    rw [Reading.followedBy, isPrefixOf_append ht hds, if_neg hpre]

/-- where there is fuel for one more step, the rest of it is enough for what is left -/
theorem exists_fuel {m : ι → Nat} {n : Nat} (hm : ∀ i, n + 1 ≤ m i) :
    ∃ m' : ι → Nat, m = (fun i => m' i + 1) ∧ ∀ i, n ≤ m' i :=
  ⟨fun i => m i - 1, funext fun i => (Nat.sub_add_cancel (Nat.one_le_of_lt (hm i))).symm, fun i =>
    Nat.le_sub_one_of_lt (hm i)⟩

/-- nothing is read up to a character of another kind that comes next -/
theorem run_stop {p : Char → Bool} (n : Nat) (hs : ∀ c, s.rest.head? = some c → p c = false) :
    StateT.run (run p n) s = .ok ([], s) := by
  cases n with
  | zero => rfl
  | succ n =>
    rw [Reader.run, run_peek_bind]
    cases hc : s.rest.head? with
    | none => rfl
    | some c =>
      dsimp only
      rw [if_neg (Bool.eq_false_iff.1 (hs c hc))]
      rfl

/-- what is read up to a character of another kind, if there is enough fuel for the text alone -/
theorem Enclosed.run {p : Char → Bool} (hp : p ')' = false) {n : Nat} {m : ι → Nat} (hn : s.rest.length ≤ n)
    (hm : ∀ i, n ≤ m i) : Enclosed (run p n) (fun i => Reader.run p (m i)) s := by
  induction n generalizing s m with
  | zero =>
    have hs : s.rest = [] := List.length_eq_zero_iff.1 (Nat.le_zero.1 hn)
    refine .of_run s rfl id fun i t ht => run_stop (m i) fun c hc => ?_
    rw [Reading.followedBy, hs, List.nil_append] at hc
    rcases ht.head with h | h
    · rw [h] at hc
      cases hc
    · rw [h] at hc
      exact Option.some.inj hc ▸ hp
  | succ n ih =>
    obtain ⟨m', rfl, hm'⟩ := exists_fuel hm
    refine .peek (fun c cs hs => ?_) fun _ => Or.inr ⟨[], rfl, fun i => ⟨rfl, ?_⟩⟩
    · dsimp only
      split
      · refine .pass (hs ▸ List.cons_ne_nil c cs) fun s' hlt => .bind (ih ?_ hm') fun _ _ _ => .pure _
        exact Nat.le_of_lt_succ (Nat.lt_of_lt_of_le hlt hn)
      · exact .pure []
    · exact if_neg (Bool.eq_false_iff.1 hp)

theorem Enclosed.runAll {p : Char → Bool} (hp : p ')' = false) :
    Enclosed (runAll p) (fun _ : ι => Reader.runAll p) s := by
  refine .get (.run hp (Nat.le_refl _) fun x => ?_)
  show s.rest.length ≤ (s.rest ++ x.2.1).length
  rw [List.length_append]
  exact Nat.le_add_right _ _

/-! ## Numbers and single characters -/

theorem dropBlanks_append (cs : List Char) {t : List Char} (ht : Closing t) :
    dropBlanks (cs ++ t) = dropBlanks cs ++ t := by
  induction cs with
  | nil => cases ht <;> rfl
  | cons c cs ih =>
    simp only [dropBlanks, List.cons_append, List.dropWhile_cons] at ih ⊢
    split
    · exact ih
    · rfl

theorem Enclosed.decimal : Enclosed decimal (fun _ : ι => Reader.decimal) s := by
  refine .bind (.of_run { s with rest := dropBlanks s.rest } rfl (fun h => ?_) fun i t ht => ?_) fun _ _ _ => ?_
  · rw [h]
    rfl
  · show Except.ok ((), { s with rest := dropBlanks (s.rest ++ t) }) = _
    rw [dropBlanks_append s.rest ht]
    rfl
  refine .bind (.runAll rfl) fun ds _ _ => .bind (.runAll (by decide)) fun _ _ _ => ?_
  split
  · exact .throw
  · split
    · exact .pure _
    · exact .throw

theorem Enclosed.hexDigits {n : Nat} {m : ι → Nat} (hm : ∀ i, n ≤ m i) :
    Enclosed (hexDigits n) (fun i => Reader.hexDigits (m i)) s := by
  induction n generalizing s m with
  | zero => exact .throw
  | succ n ih =>
    obtain ⟨m', rfl, hm'⟩ := exists_fuel hm
    refine .advance_or_stop (fun c cs s' _ _ => ?_) rfl
    dsimp only
    split
    · exact .pure []
    · split
      · exact .bind (ih hm') fun _ _ _ => .pure _
      · exact .throw

theorem rest_of_hexDigits {n : Nat} {ds : List Char} (h : StateT.run (hexDigits n) s = .ok (ds, s')) :
    s'.rest ≠ [] := by
  induction n generalizing s ds with
  | zero => cases h
  | succ n ih =>
    obtain ⟨o, s₁, h₁, h⟩ := run_bind_eq_ok.1 h
    obtain ⟨s₂, hrun, -⟩ := run_advance s
    obtain ⟨rfl, rfl⟩ := Prod.mk.inj (Except.ok.inj (hrun.symm.trans h₁))
    cases hs : s₂.rest with
    | nil =>
      rw [hs] at h
      cases h
    | cons c cs =>
      rw [hs, List.head?_cons] at h
      dsimp only at h
      split at h
      · obtain ⟨-, rfl⟩ := Prod.mk.inj (Except.ok.inj h)
        rw [hs]
        exact List.cons_ne_nil c cs
      · split at h
        · obtain ⟨ds', s₃, h₃, h⟩ := run_bind_eq_ok.1 h
          obtain ⟨-, rfl⟩ := Prod.mk.inj (Except.ok.inj h)
          exact ih h₃
        · cases h

theorem Enclosed.bracedCodePoint : Enclosed bracedCodePoint (fun _ : ι => Reader.bracedCodePoint) s := by
  refine .get (.bind (.hexDigits fun x => ?_) fun ds s' h => .pass (rest_of_hexDigits h) fun s'' _ => ?_)
  · show s.rest.length ≤ (s.rest ++ x.2.1).length
    rw [List.length_append]
    exact Nat.le_add_right _ _
  · by_cases hds : ds = []
    · simp only [if_pos hds]
      exact .throw_bind
    · simp only [if_neg hds]
      split
      · exact .pure _
      · exact .throw

theorem Enclosed.fixedDigits {n : Nat} : Enclosed (fixedDigits n) (fun _ : ι => Reader.fixedDigits n) s := by
  induction n generalizing s with
  | zero =>
    refine .peek (fun c cs _ => ?_) fun _ => Or.inl nofun
    dsimp only
    split
    · exact .pure _
    · exact .throw
  | succ n ih =>
    refine .peek (fun c cs _ => ?_) fun _ => Or.inl nofun
    dsimp only
    split
    · exact .bind .advanceOr fun _ _ _ => .bind ih fun _ _ _ => .pure _
    · exact .throw

theorem rest_of_fixedDigits {n : Nat} {ds : List Char} (h : StateT.run (fixedDigits n) s = .ok (ds, s')) :
    s'.rest ≠ [] := by
  induction n generalizing s ds with
  | zero =>
    rw [fixedDigits, run_peek_bind] at h
    cases hs : s.rest with
    | nil =>
      rw [hs] at h
      cases h
    | cons c cs =>
      rw [hs, List.head?_cons] at h
      dsimp only at h
      split at h
      · obtain ⟨-, rfl⟩ := Prod.mk.inj (Except.ok.inj h)
        rw [hs]
        exact List.cons_ne_nil c cs
      · cases h
  | succ n ih =>
    rw [fixedDigits, run_peek_bind] at h
    cases hs : s.rest with
    | nil =>
      rw [hs] at h
      cases h
    | cons c cs =>
      rw [hs, List.head?_cons] at h
      dsimp only at h
      split at h
      · obtain ⟨_, s₁, -, h⟩ := run_bind_eq_ok.1 h
        obtain ⟨ds', s₂, h₂, h⟩ := run_bind_eq_ok.1 h
        obtain ⟨-, rfl⟩ := Prod.mk.inj (Except.ok.inj h)
        exact ih h₂
      · cases h

theorem Enclosed.fixedCodePoint {n : Nat} : Enclosed (fixedCodePoint n) (fun _ : ι => Reader.fixedCodePoint n) s := by
  refine .bind .fixedDigits fun ds s' h => .pass (rest_of_fixedDigits h) fun s'' _ => ?_
  split
  · exact .pure _
  · exact .throw

theorem Enclosed.letter : Enclosed (letter c) (fun _ : ι => Reader.letter c) s := by
  refine .get ?_
  dsimp only [Reading.followedBy]
  split
  · split <;> exact .pure _
  · exact .pure _

theorem Enclosed.dot : Enclosed dot (fun _ : ι => Reader.dot) s := by
  refine .get ?_
  dsimp only [Reading.followedBy]
  split
  · exact .pure _
  · split <;> exact .pure _

theorem Enclosed.caret : Enclosed caret (fun _ : ι => Reader.caret) s := by
  refine .get ?_
  dsimp only [Reading.followedBy]
  split <;> exact .pure _

theorem Enclosed.dollar : Enclosed dollar (fun _ : ι => Reader.dollar) s := by
  refine .get ?_
  dsimp only [Reading.followedBy]
  split <;> exact .pure _

theorem Enclosed.boundaryName : Enclosed boundaryName (fun _ : ι => Reader.boundaryName) s := by
  refine .bind (.runAll (by decide)) fun name s' _ => .peek (fun c cs hs => ?_) fun _ => Or.inl nofun
  by_cases hc : some c ≠ some '}'
  · simp only [if_pos hc]
    exact .throw_bind
  · simp only [if_neg hc]
    refine .bind (.next (hs ▸ List.cons_ne_nil c cs)) fun _ _ _ => ?_
    split
    · exact .pure _
    · exact .throw

theorem Enclosed.boundary : Enclosed boundary (fun _ : ι => Reader.boundary) s := by
  have hrun : ∀ s : Reading, StateT.run Reader.boundary s = if s.rest.head? = some '{' then
      StateT.run (MonadState.get >>= fun s => Reader.advanceOr .boundaryOrCountUnclosed >>= fun c =>
        if !isBoundaryChar c then set s >>= fun _ => Pure.pure (.look .word) else Reader.boundaryName) s
      else .ok (.look .word, s) := by
    intro s
    show StateT.run (if s.rest.head? ≠ some '{' then _ else _) s = _
    by_cases h : s.rest.head? = some '{'
    · rw [if_neg (not_not.2 h), if_pos h]
      rfl
    · rw [if_pos h, if_neg h]
      rfl
  have hfollowed : ∀ t, Closing t → ((s.followedBy t).rest.head? = some '{' ↔ s.rest.head? = some '{') :=
    fun t ht => ht.head_append (by decide)
  by_cases hb : s.rest.head? = some '{'
  · have hrest : ∀ c s', StateT.run (Reader.advanceOr .boundaryOrCountUnclosed) s = .ok (c, s') → s'.rest ≠ [] := by
      intro c s' h
      obtain ⟨⟨cs, hs⟩, -⟩ := run_advanceOr h
      rw [hs]
      exact List.cons_ne_nil c cs
    refine (Enclosed.restoring (.look .word) .advanceOr hrest fun _ _ => .boundaryName).congr
      ((hrun s).trans (if_pos hb)) fun i t ht => (hrun _).trans (if_pos ((hfollowed t ht).2 hb))
  · exact .of_run s ((hrun s).trans (if_neg hb)) id fun i t ht =>
      (hrun _).trans (if_neg fun h => hb ((hfollowed t ht).1 h))

theorem Enclosed.escape : Enclosed escape (fun _ : ι => Reader.escape) s := by
  refine .peek (fun c cs hs => ?_) fun _ => Or.inl nofun
  dsimp only
  split
  · exact .throw
  split
  · exact .throw
  split
  · refine .bind .advanceOr fun d s' _ => ?_
    split
    · exact .bind .bracedCodePoint fun _ _ _ => .letter
    · exact .bind .fixedCodePoint fun _ _ _ => .letter
  refine .bind (.next (hs ▸ List.cons_ne_nil c cs)) fun _ s' _ => ?_
  split
  · exact .pure _
  split
  · exact .letter
  split
  · exact .letter
  split
  · exact .boundary
  split
  · exact .pure _
  · exact .throw

end Reader

end ConceptGraph.Regex
