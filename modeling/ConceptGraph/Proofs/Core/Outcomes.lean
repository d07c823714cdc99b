/-
Computations that may be refused, taken apart: a sequence is done if every part of it is done. The lemmas turn what a
rule says into a conjunction of the conditions it has looked at.
-/
import Mathlib.Tactic
import ConceptGraph.Rules.Guard

namespace ConceptGraph

section Outcome

variable {ε α β : Type}

theorem bind_eq_ok {x : Except ε α} {f : α → Except ε β} {b : β} :
    (x >>= f) = .ok b ↔ ∃ a, x = .ok a ∧ f a = .ok b := by
  cases x with
  | error e => simp [bind, Except.bind]
  | ok a => simp [bind, Except.bind]

theorem pure_eq_ok {a b : α} : (pure a : Except ε α) = .ok b ↔ a = b := by
  simp [pure, Except.pure]

theorem throw_ne_ok {e : ε} {a : α} : (throw e : Except ε α) ≠ .ok a := nofun

theorem throw_bind_ne_ok {e : ε} {f : β → Except ε α} {a : α} : (throw e >>= f) ≠ .ok a := nofun

theorem toOption_eq_some {x : Except ε α} {a : α} : x.toOption = some a ↔ x = .ok a := by
  cases x <;> simp [Except.toOption]

theorem toOption_eq_none {x : Except ε α} : x.toOption = none ↔ ∃ e, x = .error e := by
  cases x <;> simp [Except.toOption]

theorem if_throw_eq_ok {c : Prop} [Decidable c] {e : ε} {x : Except ε α} {a : α} :
    (if c then throw e else x) = .ok a ↔ ¬ c ∧ x = .ok a := by
  by_cases hc : c <;> simp [hc, throw_ne_ok]

/-- a refusal that stands before the rest of a rule -/
theorem if_throw_bind_eq_ok {c : Prop} [Decidable c] {e : ε} {f : β → Except ε α} {x : Except ε α} {a : α} :
    (if c then throw e >>= f else x) = .ok a ↔ ¬ c ∧ x = .ok a := by
  by_cases hc : c
  · simp [hc, bind, Except.bind, throw, throwThe, MonadExceptOf.throw]
  · simp [hc]

theorem if_else_throw_eq_ok {c : Prop} [Decidable c] {e : ε} {x : Except ε α} {a : α} :
    (if c then x else throw e) = .ok a ↔ c ∧ x = .ok a := by
  by_cases hc : c <;> simp [hc, throw_ne_ok]

end Outcome

theorem checkEach_eq_ok {α : Type} {xs : List α} {f : α → Option ConceptError} {u : Unit} :
    checkEach xs f = .ok u ↔ ∀ x ∈ xs, f x = none := by
  unfold checkEach
  cases h : xs.findSome? f with
  | none => simpa using h
  | some e =>
    obtain ⟨x, hx, he⟩ := List.exists_of_findSome?_eq_some h
    simp only [reduceCtorEq, false_iff]
    exact fun hall => by simp [hall x hx] at he

/-! ## Rules -/

/-- what comes of a rule: it is broken, with a violation of the kind, exactly if `p`, and kept otherwise -/
structure Decides {α : Type} (r : Except ConceptError α) (kind : ViolationKind) (p : Prop) : Prop where
  broken : (∃ e, r = .error e ∧ e.isViolation kind) ↔ p
  kept : (∃ a, r = .ok a) ↔ ¬ p

namespace Decides

variable {α : Type} {r : Except ConceptError α} {kind : ViolationKind} {p q : Prop}

theorem of_ok {a : α} (hr : r = .ok a) (hp : ¬ p) : Decides r kind p :=
  ⟨iff_of_false (by rintro ⟨e, he, -⟩; simp [hr] at he) hp, iff_of_true ⟨a, hr⟩ hp⟩

theorem of_error {e : ConceptError} (hr : r = .error e) (he : e.isViolation kind) (hp : p) : Decides r kind p :=
  ⟨iff_of_true ⟨e, hr, he⟩ hp, iff_of_false (by rintro ⟨a, ha⟩; simp [hr] at ha) (not_not.2 hp)⟩

theorem cases (h : Decides r kind p) : (∃ a, r = .ok a ∧ ¬ p) ∨ ∃ e, r = .error e ∧ e.isViolation kind ∧ p := by
  by_cases hp : p
  · obtain ⟨e, hr, he⟩ := h.broken.2 hp
    exact Or.inr ⟨e, hr, he, hp⟩
  · obtain ⟨a, hr⟩ := h.kept.2 hp
    exact Or.inl ⟨a, hr, hp⟩

theorem congr (h : Decides r kind p) (hpq : p ↔ q) : Decides r kind q :=
  ⟨h.broken.trans hpq, h.kept.trans (not_congr hpq)⟩

/-- a rule that asks something in one case only -/
theorem guarded {c : Prop} [Decidable c] {r : Except ConceptError Unit} (h : Decides r kind p) :
    Decides (if c then r else .ok ()) kind (c ∧ p) := by
  by_cases hc : c
  · rw [if_pos hc]
    exact h.congr (and_iff_right hc).symm
  · rw [if_neg hc]
    exact .of_ok rfl fun hp => hc hp.1

end Decides

/-- a check of several is broken exactly if there is a fault -/
theorem checkEach_decides {α : Type} {xs : List α} {f : α → Option ConceptError} {kind : ViolationKind}
    (hkind : ∀ x ∈ xs, ∀ e, f x = some e → e.isViolation kind) :
    Decides (checkEach xs f) kind (∃ x ∈ xs, f x ≠ none) := by
  unfold checkEach
  cases h : xs.findSome? f with
  | none => exact .of_ok rfl (by simpa using h)
  | some e =>
    obtain ⟨x, hx, he⟩ := List.exists_of_findSome?_eq_some h
    exact .of_error rfl (hkind x hx e he) ⟨x, hx, by simp [he]⟩

namespace Schema

variable {s : Schema} {t : TypeId} {d : TypeDef} {kind : Kind}

theorem require_eq_ok : s.require t = .ok d ↔ s.get? t = some d := by
  unfold require
  cases s.get? t <;> simp

/-- a definition is taken if it is there and passes a test -/
theorem require_where_eq_ok {p : TypeDef → Prop} [DecidablePred p] {err : TypeDef → ConceptError} :
    (s.require t >>= fun d => if p d then pure d else throw (err d)) = .ok d ↔ s.get? t = some d ∧ p d := by
  simp only [bind_eq_ok, require_eq_ok, if_else_throw_eq_ok, pure_eq_ok]
  constructor
  · rintro ⟨e, he, hp, rfl⟩
    exact ⟨he, hp⟩
  · rintro ⟨hd, hp⟩
    exact ⟨d, hd, hp, rfl⟩

theorem requireKind_eq_ok : s.requireKind t kind = .ok d ↔ s.get? t = some d ∧ d.kind = kind := require_where_eq_ok

theorem requireThingType_eq_ok : s.requireThingType t = .ok d ↔ s.get? t = some d ∧ d.kind ≠ .role :=
  require_where_eq_ok.trans (by simp only [Kind.isThingType, bne_iff_ne])

theorem liftEdit_eq_ok {α : Type} {r : Except (HierarchyError TypeId) α} {x : α} : s.liftEdit r = .ok x ↔ r = .ok x := by
  cases r <;> simp [liftEdit, Except.mapError]

theorem checkLabelFree_eq_ok {l : Label} {owner : Option TypeId} {u : Unit} :
    s.checkLabelFree l owner = .ok u ↔ ∀ holder, s.idOf? l = some holder → some holder = owner := by
  unfold checkLabelFree
  cases s.idOf? l with
  | none => simp [pure_eq_ok]
  | some holder => simp [if_else_throw_eq_ok, pure_eq_ok]

end Schema

namespace State

variable {s : State} {t : TypeId} {d : TypeDef} {kind : Kind}

theorem notMeta_eq_ok {u : Unit} : s.notMeta t d = .ok u ↔ ¬ s.schema.isMeta t := by
  simp [notMeta, if_throw_eq_ok, pure_eq_ok]

theorem notImplicit_eq_ok {u : Unit} : notImplicit d = .ok u ↔ ¬ d.isImplicit := by
  simp [notImplicit, if_throw_eq_ok, pure_eq_ok]

theorem concrete_eq_ok {u : Unit} : concrete t d = .ok u ↔ ¬ d.isAbstract := by
  simp [concrete, if_throw_eq_ok, pure_eq_ok]

/-- what an element must be for users to edit it -/
def Editable (s : State) (t : TypeId) (d : TypeDef) : Prop :=
  s.schema.get? t = some d ∧ ¬ s.schema.isMeta t ∧ ¬ d.isImplicit

/-- what is taken passes both guards -/
theorem guarded_eq_ok {r : Except ConceptError TypeDef} :
    (r >>= fun d => s.notMeta t d >>= fun _ => notImplicit d >>= fun _ => pure d) = .ok d ↔
      r = .ok d ∧ ¬ s.schema.isMeta t ∧ ¬ d.isImplicit := by
  simp only [bind_eq_ok, notMeta_eq_ok, notImplicit_eq_ok, pure_eq_ok]
  constructor
  · rintro ⟨e, hr, -, hm, -, hi, rfl⟩
    exact ⟨hr, hm, hi⟩
  · rintro ⟨hr, hm, hi⟩
    exact ⟨d, hr, (), hm, (), hi, rfl⟩

theorem editableAny_eq_ok : s.editableAny t = .ok d ↔ s.Editable t d := by
  rw [editableAny, guarded_eq_ok, Schema.require_eq_ok, Editable]

theorem editable_eq_ok : s.editable t kind = .ok d ↔ s.Editable t d ∧ d.kind = kind := by
  rw [editable, guarded_eq_ok, Schema.requireKind_eq_ok, Editable, and_right_comm]

theorem editableThingType_eq_ok : s.editableThingType t = .ok d ↔ s.Editable t d ∧ d.kind ≠ .role := by
  rw [editableThingType, guarded_eq_ok, Schema.requireThingType_eq_ok, Editable, and_right_comm]

theorem thing_eq_ok {id : ThingId} {th : Thing} : s.thing id = .ok th ↔ s.graph.get? id = some th := by
  unfold thing Graph.require
  cases s.graph.get? id <;> simp

end State

end ConceptGraph
