/-
Edits, step by step. An edit asks first and changes the transaction afterwards; `Does` says of an edit that it is refused
and has changed nothing, or done as described.

- `outcome_bind` and the lemmas after it: what comes of the steps that edits are made of.
- `Does.ask`, `Does.look`: as long as an edit only asks, it may be refused. `Settles`: it goes through where it is not.
- `Done.editSchema`, `Done.editGraph`, `Done.record`, `Done.draw`: from the first change on, each step must go through.
- `Draws`: how many identifiers an edit draws, which can be told before it is known what comes of the edit.
- `Ensures`: what holds after an edit in case it is done.
-/
import ConceptGraph.Proofs.Core.Outcomes
import ConceptGraph.Session.Operation

namespace ConceptGraph

namespace Transaction

variable {α β : Type} {t t' : Transaction}

/-- what comes of an edit, and the transaction after it -/
def outcome (e : Edit α) (t : Transaction) : Except ConceptError α × Transaction := e.run.run t

theorem perform_eq (t : Transaction) (op : Operation) : t.perform op = outcome op.perform t := rfl

/-! ## Steps -/

theorem outcome_bind (e : Edit α) (f : α → Edit β) (t : Transaction) : outcome (e >>= f) t =
    match outcome e t with
    | (.ok a, t') => outcome (f a) t'
    | (.error err, t') => (.error err, t') := by
  show ((e >>= f).run.run t) = _
  rw [ExceptT.run_bind, StateT.run_bind]
  unfold outcome
  cases h : e.run.run t with
  | mk r t' => cases r <;> rfl

theorem outcome_map (f : α → β) (e : Edit α) (t : Transaction) :
    outcome (f <$> e) t = ((outcome e t).1.map f, (outcome e t).2) := by
  rw [map_eq_pure_bind, outcome_bind]
  cases h : outcome e t with
  | mk r t' => cases r <;> rfl

theorem outcome_pure (a : α) (t : Transaction) : outcome (pure a) t = (.ok a, t) := rfl

theorem outcome_ask (f : State → Except ConceptError α) (t : Transaction) : outcome (ask f) t = (f t.working, t) := by
  show outcome (get >>= fun t : Transaction => liftExcept (f t.working)) t = _
  rw [outcome_bind]
  show outcome (liftExcept (f t.working)) t = _
  cases f t.working <;> rfl

theorem outcome_look (f : State → α) (t : Transaction) : outcome (look f) t = (.ok (f t.working), t) := rfl

theorem outcome_record (m : Mutation) (t : Transaction) :
    outcome (record m) t = (.ok (), { t with mutations := t.mutations ++ [m] }) := rfl

theorem outcome_newType (t : Transaction) :
    outcome newType t = (.ok ⟨t.ids.next⟩, { t with ids := ⟨t.ids.next + 1⟩ }) := rfl

theorem outcome_newThing (t : Transaction) :
    outcome newThing t = (.ok ⟨t.ids.next⟩, { t with ids := ⟨t.ids.next + 1⟩ }) := rfl

/-- the transaction with another schema -/
def withSchema (t : Transaction) (schema : Schema) : Transaction :=
  { t with working := { t.working with schema := schema } }

/-- the transaction with another graph -/
def withGraph (t : Transaction) (graph : Graph) : Transaction := { t with working := { t.working with graph := graph } }

theorem outcome_editSchema (f : Schema → Except ConceptError Schema) (t : Transaction) : outcome (editSchema f) t =
    match f t.working.schema with
    | .ok schema => (.ok (), t.withSchema schema)
    | .error err => (.error err, t) := by
  show outcome (ask (fun s => f s.schema) >>= setSchema) t = _
  rw [outcome_bind, outcome_ask]
  cases f t.working.schema <;> rfl

theorem outcome_editGraph (f : Graph → Except ConceptError (α × Graph)) (t : Transaction) : outcome (editGraph f) t =
    match f t.working.graph with
    | .ok (a, graph) => (.ok a, t.withGraph graph)
    | .error err => (.error err, t) := by
  show outcome (ask (fun s => f s.graph) >>= fun r => setGraph r.2 >>= fun _ => pure r.1) t = _
  rw [outcome_bind, outcome_ask]
  cases f t.working.graph <;> rfl

/-- an edit is done and then another one -/
theorem outcome_bind_eq_ok {e : Edit α} {k : α → Edit β} {b : β} : outcome (e >>= k) t = (.ok b, t') ↔
    ∃ a u, outcome e t = (.ok a, u) ∧ outcome (k a) u = (.ok b, t') := by
  rw [outcome_bind]
  cases h : outcome e t with
  | mk r u => cases r <;> simp

theorem outcome_map_eq_ok {e : Edit α} {f : α → β} {b : β} : outcome (f <$> e) t = (.ok b, t') ↔
    ∃ a, outcome e t = (.ok a, t') ∧ f a = b := by
  rw [outcome_map]
  cases h : outcome e t with
  | mk r u => cases r <;> simp [Except.map, and_comm]

/-- edits are done one after the other -/
theorem outcome_mapM_cons {f : α → Edit β} {a : α} {as : List α} {bs : List β} :
    outcome ((a :: as).mapM f) t = (.ok bs, t') ↔
      ∃ b bs' u, outcome (f a) t = (.ok b, u) ∧ outcome (as.mapM f) u = (.ok bs', t') ∧ bs = b :: bs' := by
  simp only [List.mapM_cons, outcome_bind_eq_ok, outcome_pure, Prod.mk.injEq, Except.ok.injEq]
  constructor
  · rintro ⟨b, u, ha, bs', _, has, rfl, rfl⟩
    exact ⟨b, bs', u, ha, has, rfl⟩
  · rintro ⟨b, bs', u, ha, has, rfl⟩
    exact ⟨b, u, ha, bs', t', has, rfl, rfl⟩

/-! ## Identifiers -/

/-- how many identifiers have been drawn between two transactions -/
def drawn (t t' : Transaction) : Nat := (t'.ids.next - t.ids.next).toNat

/-- the edit draws no identifier, whatever comes of it -/
def Keeps (e : Edit α) : Prop := ∀ t, (outcome e t).2.ids = t.ids

theorem Keeps.bind {e : Edit β} {k : β → Edit α} (he : Keeps e) (hk : ∀ b, Keeps (k b)) : Keeps (e >>= k) := by
  intro t
  rw [outcome_bind]
  have := he t
  cases h : outcome e t with
  | mk r t' =>
    rw [h] at this
    cases r with
    | error err => exact this
    | ok b => exact (hk b t').trans this

theorem keeps_pure (a : α) : Keeps (pure a) := fun _ => rfl

theorem keeps_record (m : Mutation) : Keeps (record m) := fun _ => rfl

theorem keeps_editSchema (f : Schema → Except ConceptError Schema) : Keeps (editSchema f) := by
  intro t
  rw [outcome_editSchema]
  cases f t.working.schema <;> rfl

theorem keeps_editGraph (f : Graph → Except ConceptError (α × Graph)) : Keeps (editGraph f) := by
  intro t
  rw [outcome_editGraph]
  cases f t.working.graph <;> rfl

/-- the edit draws that many identifiers, whatever comes of it -/
def Draws (k : Nat) (e : Edit α) : Prop := ∀ t, (outcome e t).2.ids.next = t.ids.next + UInt64.ofNat k

theorem Keeps.draws {e : Edit α} (h : Keeps e) : Draws 0 e := by
  intro t
  rw [h t]
  simp

theorem draws_newType {m : Nat} {k : TypeId → Edit α} (hk : ∀ x, Draws m (k x)) : Draws (m + 1) (newType >>= k) := by
  intro t
  rw [outcome_bind, outcome_newType]
  exact (hk _ _).trans (by simp [UInt64.add_assoc, UInt64.add_comm 1])

theorem draws_newThing {m : Nat} {k : ThingId → Edit α} (hk : ∀ x, Draws m (k x)) : Draws (m + 1) (newThing >>= k) := by
  intro t
  rw [outcome_bind, outcome_newThing]
  exact (hk _ _).trans (by simp [UInt64.add_assoc, UInt64.add_comm 1])

theorem Draws.drawn {k : Nat} {e : Edit α} (h : Draws k e) (hk : k < 2 ^ 64) (t : Transaction) :
    drawn t (outcome e t).2 = k := by
  rw [Transaction.drawn, h t, UInt64.add_comm, UInt64.add_sub_cancel, UInt64.toNat_ofNat_of_lt' hk]

/-! ## Done, or refused -/

/-- the edit is done as described -/
def Done (e : Edit α) (t : Transaction) (post : α → Transaction → Prop) : Prop :=
  ∃ a t', outcome e t = (.ok a, t') ∧ post a t'

/-- unless identifiers run out, of which `n` have been drawn before, the edit is done as described -/
def Settles (n : Nat) (e : Edit α) (t : Transaction) (post : α → Transaction → Prop) : Prop :=
  n + drawn t (outcome e t).2 < 2 ^ 64 → Done e t post

/-- unless identifiers run out, of which `n` have been drawn before, the edit is refused and changes nothing, or it is
done as described -/
def Does (n : Nat) (e : Edit α) (t : Transaction) (post : α → Transaction → Prop) : Prop :=
  n + drawn t (outcome e t).2 < 2 ^ 64 → (∃ err, outcome e t = (.error err, t)) ∨ Done e t post

section Rules

variable {n : Nat} {post : α → Transaction → Prop} {k : β → Edit α}

theorem Done.pure {a : α} (h : post a t) : Done (pure a) t post := ⟨a, t, rfl, h⟩

theorem Done.record {m : Mutation} {k : Unit → Edit α} (h : Done (k ()) { t with mutations := t.mutations ++ [m] } post) :
    Done (record m >>= k) t post := by
  obtain ⟨a, t', hk, hp⟩ := h
  exact ⟨a, t', by rw [outcome_bind, outcome_record]; exact hk, hp⟩

theorem Done.record_last {m : Mutation} {post : Unit → Transaction → Prop}
    (h : post () { t with mutations := t.mutations ++ [m] }) : Done (Transaction.record m) t post := ⟨(), _, rfl, h⟩

theorem Done.editSchema {f : Schema → Except ConceptError Schema} {k : Unit → Edit α} {schema : Schema}
    (hf : f t.working.schema = .ok schema) (h : Done (k ()) (t.withSchema schema) post) :
    Done (editSchema f >>= k) t post := by
  obtain ⟨a, t', hk, hp⟩ := h
  exact ⟨a, t', by rw [outcome_bind, outcome_editSchema, hf]; exact hk, hp⟩

theorem Done.editGraph {f : Graph → Except ConceptError (β × Graph)} {b : β} {graph : Graph}
    (hf : f t.working.graph = .ok (b, graph)) (h : Done (k b) (t.withGraph graph) post) :
    Done (editGraph f >>= k) t post := by
  obtain ⟨a, t', hk, hp⟩ := h
  exact ⟨a, t', by rw [outcome_bind, outcome_editGraph, hf]; exact hk, hp⟩

theorem Done.bind {e : Edit β} {b : β} (he : outcome e t = (.ok b, t')) (h : Done (k b) t' post) :
    Done (e >>= k) t post := by
  obtain ⟨a, t'', hk, hp⟩ := h
  exact ⟨a, t'', by rw [outcome_bind, he]; exact hk, hp⟩

theorem Done.ask {f : State → Except ConceptError β} {b : β} (hf : f t.working = .ok b) (h : Done (k b) t post) :
    Done (ask f >>= k) t post := h.bind (by rw [outcome_ask, hf])

theorem Done.look {f : State → β} (h : Done (k (f t.working)) t post) : Done (look f >>= k) t post := h

theorem Done.get {k : Transaction → Edit α} (h : Done (k t) t post) : Done (get >>= k) t post := h

theorem Done.newType {k : TypeId → Edit α}
    (h : Done (k ⟨t.ids.next⟩) { t with ids := ⟨t.ids.next + 1⟩ } post) : Done (newType >>= k) t post := h

theorem Done.newThing {k : ThingId → Edit α}
    (h : Done (k ⟨t.ids.next⟩) { t with ids := ⟨t.ids.next + 1⟩ } post) : Done (newThing >>= k) t post := h

/-- an edit that is done in one way only -/
theorem Done.outcome_eq {e : Edit α} {a : α} (h : Done e t fun b u => b = a ∧ u = t') : outcome e t = (.ok a, t') := by
  obtain ⟨_, _, hout, rfl, rfl⟩ := h
  exact hout

theorem Done.map {γ : Type} {f : α → γ} {e : Edit α} {post : γ → Transaction → Prop}
    (h : Done e t fun a t' => post (f a) t') : Done (f <$> e) t post := by
  obtain ⟨a, t', hout, hp⟩ := h
  exact ⟨f a, t', by rw [outcome_map, hout]; rfl, hp⟩

theorem Done.settles {e : Edit α} (h : Done e t post) : Settles n e t post := fun _ => h

theorem Settles.does {e : Edit α} (h : Settles n e t post) : Does n e t post := fun hfit => Or.inr (h hfit)

theorem Done.does {e : Edit α} (h : Done e t post) : Does n e t post := h.settles.does

theorem Does.pure {a : α} (h : post a t) : Does n (pure a) t post := (Done.pure h).does

/-- an edit that asks first is refused if the answer is no, and goes on otherwise -/
theorem outcome_refused {f : State → Except ConceptError β} {err : ConceptError} (hf : f t.working = .error err) :
    outcome (ask f >>= k) t = (.error err, t) := by
  rw [outcome_bind, outcome_ask, hf]

theorem outcome_allowed {f : State → Except ConceptError β} {b : β} (hf : f t.working = .ok b) :
    outcome (ask f >>= k) t = outcome (k b) t := by
  rw [outcome_bind, outcome_ask, hf]

/-- an operation that asks first, and has nothing to reply, is refused if the answer is no -/
theorem perform_refused {op : Operation} {f : State → Except ConceptError β} {k : β → Edit Unit} {err : ConceptError}
    (hop : op.perform = (fun _ => Reply.done) <$> (ask f >>= k)) (hf : f t.working = .error err) :
    t.perform op = (.error err, t) := by
  rw [perform_eq, hop, outcome_map, outcome_refused hf]
  rfl

theorem perform_allowed {op : Operation} {f : State → Except ConceptError β} {k : β → Edit Unit} {b : β}
    (hop : op.perform = (fun _ => Reply.done) <$> (ask f >>= k)) (hf : f t.working = .ok b)
    (hk : outcome (k b) t = (.ok (), t')) : t.perform op = (.ok .done, t') := by
  rw [perform_eq, hop, outcome_map, outcome_allowed hf, hk]
  rfl

theorem Settles.ask {f : State → Except ConceptError β} {b : β} (hf : f t.working = .ok b)
    (h : Settles n (k b) t post) : Settles n (ask f >>= k) t post := by
  simpa only [Settles, Done, outcome_allowed hf] using h

theorem Settles.look {f : State → β} (h : Settles n (k (f t.working)) t post) : Settles n (look f >>= k) t post := h

theorem Does.ask {f : State → Except ConceptError β} (h : ∀ b, f t.working = .ok b → Does n (k b) t post) :
    Does n (ask f >>= k) t post := by
  cases hf : f t.working with
  | error err => exact fun _ => Or.inl ⟨err, outcome_refused hf⟩
  | ok b => simpa only [Does, Done, outcome_allowed hf] using h b hf

theorem Does.look {f : State → β} (h : Does n (k (f t.working)) t post) : Does n (look f >>= k) t post := h

theorem Does.get {k : Transaction → Edit α} (h : Does n (k t) t post) : Does n (get >>= k) t post := h

/-- an edit that goes on to draw identifiers may rely on there being as many -/
theorem Settles.draw {m : Nat} {e : Edit α} (he : Draws m e) (hm : m < 2 ^ 64) (h : n + m < 2 ^ 64 → Done e t post) :
    Settles n e t post := by
  intro hfit
  rw [he.drawn hm] at hfit
  exact h hfit

theorem Does.draw {m : Nat} {e : Edit α} (he : Draws m e) (hm : m < 2 ^ 64) (h : n + m < 2 ^ 64 → Done e t post) :
    Does n e t post := (Settles.draw he hm h).does

theorem Does.map {γ : Type} {f : α → γ} {e : Edit α} {post : γ → Transaction → Prop}
    (h : Does n e t fun a t' => post (f a) t') : Does n (f <$> e) t post := by
  intro hfit
  rw [outcome_map] at hfit
  rcases h hfit with ⟨err, he⟩ | ⟨a, t', he, hp⟩
  · exact Or.inl ⟨err, by rw [outcome_map, he]; rfl⟩
  · exact Or.inr ⟨f a, t', by rw [outcome_map, he]; rfl, hp⟩

theorem Does.weaken {e : Edit α} {post' : α → Transaction → Prop} (h : Does n e t post)
    (hp : ∀ a t', post a t' → post' a t') : Does n e t post' :=
  fun hfit => (h hfit).imp_right fun ⟨a, t', he, ha⟩ => ⟨a, t', he, hp a t' ha⟩

theorem Does.andReturn {e : Edit β} {f : β → α} (h : Does n e t fun b t' => post (f b) t') :
    Does n (e >>= fun b => Pure.pure (f b)) t post := by
  rw [← map_eq_pure_bind]
  exact h.map

end Rules

/-! ## If done -/

/-- if the edit is done, then as described -/
def Ensures (e : Edit α) (t : Transaction) (post : α → Transaction → Prop) : Prop :=
  ∀ a t', outcome e t = (.ok a, t') → post a t'

namespace Ensures

variable {post : α → Transaction → Prop} {k : β → Edit α}

theorem pure {a : α} (h : post a t) : Ensures (pure a) t post := by
  intro b t' heq
  obtain ⟨hb, rfl⟩ := Prod.mk.inj heq
  obtain rfl := Except.ok.inj hb
  exact h

theorem throw {err : ConceptError} : Ensures (throw err) t post := nofun

theorem bind {e : Edit β} (h : Ensures e t fun b t' => Ensures (k b) t' post) : Ensures (e >>= k) t post := by
  intro a t' heq
  rw [outcome_bind] at heq
  cases he : outcome e t with
  | mk r t₁ =>
    rw [he] at heq
    cases r with
    | error err => simp at heq
    | ok b => exact h b t₁ he a t' heq

theorem ask {f : State → Except ConceptError β} (h : ∀ b, f t.working = .ok b → Ensures (k b) t post) :
    Ensures (ask f >>= k) t post := by
  refine .bind fun b t' heq => ?_
  rw [outcome_ask] at heq
  obtain ⟨hb, rfl⟩ := Prod.mk.inj heq
  exact h b hb

theorem look {f : State → β} (h : Ensures (k (f t.working)) t post) : Ensures (look f >>= k) t post := h

theorem get {k : Transaction → Edit α} (h : Ensures (k t) t post) : Ensures (get >>= k) t post := h

theorem newType {k : TypeId → Edit α} (h : Ensures (k ⟨t.ids.next⟩) { t with ids := ⟨t.ids.next + 1⟩ } post) :
    Ensures (newType >>= k) t post := h

theorem newThing {k : ThingId → Edit α} (h : Ensures (k ⟨t.ids.next⟩) { t with ids := ⟨t.ids.next + 1⟩ } post) :
    Ensures (newThing >>= k) t post := h

theorem record {m : Mutation} {k : Unit → Edit α}
    (h : Ensures (k ()) { t with mutations := t.mutations ++ [m] } post) : Ensures (record m >>= k) t post := h

theorem record_last {m : Mutation} {post : Unit → Transaction → Prop}
    (h : post () { t with mutations := t.mutations ++ [m] }) : Ensures (Transaction.record m) t post := by
  intro b t' heq
  obtain ⟨-, rfl⟩ := Prod.mk.inj heq
  exact h

theorem editSchema {f : Schema → Except ConceptError Schema} {k : Unit → Edit α}
    (h : ∀ schema, f t.working.schema = .ok schema → Ensures (k ()) (t.withSchema schema) post) :
    Ensures (editSchema f >>= k) t post := by
  refine .bind fun b t' heq => ?_
  rw [outcome_editSchema] at heq
  split at heq
  · obtain ⟨-, rfl⟩ := Prod.mk.inj heq
    exact h _ ‹_›
  · simp at heq

theorem editGraph {f : Graph → Except ConceptError (β × Graph)}
    (h : ∀ b graph, f t.working.graph = .ok (b, graph) → Ensures (k b) (t.withGraph graph) post) :
    Ensures (editGraph f >>= k) t post := by
  refine .bind fun b t' heq => ?_
  rw [outcome_editGraph] at heq
  split at heq
  · obtain ⟨hb, rfl⟩ := Prod.mk.inj heq
    obtain rfl := Except.ok.inj hb
    exact h _ _ ‹_›
  · simp at heq

theorem map {γ : Type} {f : α → γ} {e : Edit α} {post : γ → Transaction → Prop}
    (h : Ensures e t fun a t' => post (f a) t') : Ensures (f <$> e) t post := by
  rw [map_eq_pure_bind]
  exact .bind fun a t' heq => .pure (h a t' heq)

theorem weaken {e : Edit α} {post' : α → Transaction → Prop} (h : Ensures e t post)
    (hp : ∀ a t', post a t' → post' a t') : Ensures e t post' := fun a t' heq => hp a t' (h a t' heq)

end Ensures

end Transaction

end ConceptGraph
