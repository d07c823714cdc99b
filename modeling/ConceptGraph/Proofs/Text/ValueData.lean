/-
Values are read from the data that they are written as.

- `fields?_record`, `tagged?_record`: the fields of an object that was written from different names.
- `Json.Proper`: data that can be written, kept aside and read. All data of the library is so, whatever it holds.
- `Value.ofJson?_toJson`: a value reads as `reread`, which is the value itself, but for the last digit of a number. Only
  infinities and NaNs, which are written as null, cannot be read (`Value.isSome_reread`).
-/
import ConceptGraph.Value
import ConceptGraph.Proofs.Text.Dates
import ConceptGraph.Proofs.Text.NumberText

namespace ConceptGraph

/-! ## Items one by one -/

section

variable {α β γ : Type} {f : α → Option β} {as : List α} {bs : List β}

/-- what is read one by one is there as a whole if each of it is there -/
theorem mapM_eq_some : as.mapM f = some bs ↔ as.map f = bs.map some := by
  induction as generalizing bs with
  | nil => cases bs <;> simp
  | cons a as ih =>
    cases bs with
    | nil => simp [List.mapM_cons, Option.bind_eq_some_iff]
    | cons b bs => simp [List.mapM_cons, Option.bind_eq_some_iff, ih]

theorem mapM_cons_eq_some {a : α} :
    (a :: as).mapM f = some bs ↔ ∃ b bs', f a = some b ∧ as.mapM f = some bs' ∧ bs = b :: bs' := by
  simp only [mapM_eq_some, List.map_cons]
  constructor
  · intro h
    obtain ⟨b, bs', rfl, hb, hbs⟩ := List.map_eq_cons_iff.1 h.symm
    exact ⟨b, bs', hb.symm, hbs.symm, rfl⟩
  · rintro ⟨b, bs', hb, hbs, rfl⟩
    rw [hb, hbs, List.map_cons]

theorem mapM_eq_map {g : α → β} (h : ∀ a ∈ as, f a = some (g a)) : as.mapM f = some (as.map g) := by
  rw [mapM_eq_some, List.map_map]
  exact List.map_congr_left h

theorem isSome_mapM : (as.mapM f).isSome ↔ ∀ a ∈ as, (f a).isSome := by
  induction as with
  | nil => simp
  | cons a as ih =>
    rw [List.forall_mem_cons, ← ih, List.mapM_cons]
    cases f a <;> cases as.mapM f <;> simp

/-- what every item keeps is kept in the list -/
theorem map_of_mapM {g : β → γ} {h : α → γ} (hf : ∀ a b, f a = some b → g b = h a) (hread : as.mapM f = some bs) :
    bs.map g = as.map h := by
  rw [mapM_eq_some] at hread
  induction as generalizing bs with
  | nil => simp_all
  | cons a as ih =>
    cases bs with
    | nil => simp at hread
    | cons b bs =>
      obtain ⟨hb, hbs⟩ := List.cons.inj hread
      rw [List.map_cons, List.map_cons, hf a b hb, ih hbs]

end

namespace Json

variable {fs : List (String × Json)} {k : String} {j t : Json} {names : List String} {d : ℕ}

/-! ## Objects -/

theorem properFields?_record (fs : List (String × Json)) : properFields? (fs.map fun f => (some f.1, f.2)) = some fs := by
  have hfields := mapM_eq_map (fun f _ => rfl : ∀ f ∈ fs, some f = some f)
  rw [List.map_id'] at hfields
  rw [properFields?, List.mapM_map]
  exact hfields

theorem filter_name_eq_nil (h : k ∉ fs.map Prod.fst) : fs.filter (fun f => f.1 == k) = [] :=
  List.filter_eq_nil_iff.2 fun f hf he => h (List.mem_map.2 ⟨f, hf, eq_of_beq he⟩)

/-- a field is found under its name, if no other one has that name -/
theorem field?_of_mem (hn : (fs.map Prod.fst).Nodup) (h : (k, j) ∈ fs) : field? fs k = some j := by
  obtain ⟨front, rest, rfl⟩ := List.append_of_mem h
  rw [List.map_append, List.map_cons, List.nodup_append, List.nodup_cons] at hn
  have hfront : k ∉ front.map Prod.fst := fun hk => hn.2.2 k hk k List.mem_cons_self rfl
  simp [field?, filter_name_eq_nil hfront, filter_name_eq_nil hn.2.1.1]

/-- **An object** of different fields has each of them. -/
theorem fields?_record (hn : (fs.map Prod.fst).Nodup) (hnames : fs.map Prod.fst = names) :
    (record fs).fields? names = some (fs.map Prod.snd) := by
  subst hnames
  rw [record, fields?, properFields?_record]
  show (fs.map Prod.fst).mapM (field? fs) = _
  rw [List.mapM_map]
  exact mapM_eq_map fun f hf => field?_of_mem hn hf

/-- the field in front is the tag, and the others are the structure without it -/
theorem tagged?_record (h : k ∉ fs.map Prod.fst) : (record ((k, t) :: fs)).tagged? k = some (t, record fs) := by
  have hfront : field? ((k, t) :: fs) k = some t := by simp [field?, filter_name_eq_nil h]
  have hrest : ((fs.map fun f => (some f.1, f.2)).filter fun f => f.1 != some k) = fs.map fun f => (some f.1, f.2) :=
    List.filter_eq_self.2 fun f hf => by
      obtain ⟨g, hg, rfl⟩ := List.mem_map.1 hf
      simpa using fun he : g.1 = k => h (List.mem_map.2 ⟨g, hg, he⟩)
  rw [record, tagged?, properFields?_record]
  simp only [Option.bind_eq_bind, Option.bind_some, hfront, List.map_cons]
  rw [List.filter_cons_of_neg (by simp), hrest]
  rfl

/-! ## Scalars -/

theorem uint64?_ofNat (u : UInt64) : (ofNat u.toNat).uint64? = some u := by
  have hint : (ofNat u.toNat).int? = some (u.toNat : ℤ) := Numeral.toInt?_ofNat u.toNat
  rw [uint64?, hint, Option.bind_some, if_pos ⟨Int.natCast_nonneg _, by exact_mod_cast u.toNat_lt⟩]
  simp

theorem int32?_ofInt (i : Int32) : (ofInt i.toInt).int32? = some i := by
  have hint : (ofInt i.toInt).int? = some i.toInt := Numeral.toInt?_ofInt i.toInt
  rw [int32?, hint, Option.bind_some, if_pos ⟨i.minValue_le_toInt, i.toInt_le⟩, Int32.ofInt_toInt]

theorem int64?_ofInt (i : Int64) : (ofInt i.toInt).int64? = some i := by
  have hint : (ofInt i.toInt).int? = some i.toInt := Numeral.toInt?_ofInt i.toInt
  rw [int64?, hint, Option.bind_some, if_pos ⟨i.minValue_le_toInt, i.toInt_le⟩, Int64.ofInt_toInt]

/-! ## Data that can be kept -/

/-- strings have content, numbers have their digits and are in range, and the nesting is bounded -/
structure Proper (d : ℕ) (j : Json) : Prop where
  written : j.WellWritten
  sound : j.isSound = true
  nested : j.depth ≤ d

theorem Proper.isKeepable {outer : ℕ} (h : j.Proper d) (hd : d + outer ≤ maxDepth) : j.isKeepable outer = true := by
  have := h.nested
  rw [Json.isKeepable, h.sound, Bool.true_and, decide_eq_true_eq]
  omega

theorem proper_null : Json.null.Proper d := ⟨trivial, rfl, Nat.zero_le d⟩

theorem proper_bool (b : Bool) : (Json.bool b).Proper d := ⟨trivial, rfl, Nat.zero_le d⟩

theorem proper_ofString (s : String) : (ofString s).Proper d := ⟨rfl, rfl, Nat.zero_le d⟩

theorem proper_ofNat {n : ℕ} (hn : n < 2 ^ 64) : (ofNat n).Proper d :=
  ⟨Numeral.wellWritten_ofNat n, Numeral.toDouble?_of_whole false hn, Nat.zero_le d⟩

theorem proper_ofInt {i : ℤ} (hi : i.natAbs < 2 ^ 64) : (ofInt i).Proper d :=
  ⟨Numeral.wellWritten_ofInt i, Numeral.toDouble?_of_whole _ hi, Nat.zero_le d⟩

/-- an object is one level deeper than its fields -/
theorem proper_record (h : ∀ f ∈ fs, f.2.Proper d) : (record fs).Proper (d + 1) := by
  have hfields : FieldsWellWritten (fs.map fun f => (some f.1, f.2)) ∧
      areSoundFields (fs.map fun f => (some f.1, f.2)) = true ∧ fieldsDepth (fs.map fun f => (some f.1, f.2)) ≤ d := by
    induction fs with
    | nil => exact ⟨trivial, rfl, Nat.zero_le d⟩
    | cons f fs ih =>
      obtain ⟨hf, hfs⟩ := List.forall_mem_cons.1 h
      obtain ⟨hwritten, hsound, hnested⟩ := ih hfs
      refine ⟨⟨rfl, hf.written, hwritten⟩, ?_, Nat.max_le.2 ⟨hf.nested, hnested⟩⟩
      simp [areSoundFields, hf.sound, hsound]
  exact ⟨hfields.1, hfields.2.1, Nat.succ_le_succ hfields.2.2⟩

end Json

/-! ## Numbers -/

namespace Numeral

variable {n? : Option Numeral} {finite : Bool} {d : ℕ}

/-- a numeral, or null where there is none -/
theorem Stands.proper (h : Stands n? finite) : (match n? with | some n => Json.number n | none => .null).Proper d := by
  cases hn : n? with
  | none => exact Json.proper_null
  | some n => exact ⟨(h.readable n hn).1, (h.readable n hn).2.2, Nat.zero_le d⟩

/-- the finite numbers are those that can be read, in each way that takes what has a point -/
theorem Stands.isSome_bind {α : Type} {read : Numeral → Option α} (h : Stands n? finite)
    (hread : ∀ n, n.toInt? = none → n.toDouble?.isSome → (read n).isSome) : (n?.bind read).isSome = finite := by
  rw [← h.isSome]
  cases hn : n? with
  | none => rfl
  | some n => exact hread n (h.readable n hn).2.1 (h.readable n hn).2.2

end Numeral

namespace Double

/-- what the digits of the number read as -/
def reread (a : Double) : Option Double := a.numeral?.bind Numeral.toDouble?

theorem proper_toJson {d : ℕ} (a : Double) : a.toJson.Proper d := a.numeral?_stands.proper

theorem double?_toJson (a : Double) : a.toJson.double? = a.reread := by
  unfold toJson reread
  cases a.numeral? <;> rfl

theorem isSome_reread (a : Double) : a.reread.isSome = a.isFinite := a.numeral?_stands.isSome_bind fun _ _ hread => hread

end Double

namespace Single

/-- what the digits of the number read as -/
def reread (a : Single) : Option Single := a.numeral?.bind Numeral.toSingle?

theorem proper_toJson {d : ℕ} (a : Single) : a.toJson.Proper d := a.numeral?_stands.proper

theorem single?_toJson (a : Single) : a.toJson.single? = a.reread := by
  unfold toJson reread
  cases a.numeral? <;> rfl

theorem isSome_reread (a : Single) : a.reread.isSome = a.isFinite :=
  a.numeral?_stands.isSome_bind fun n hpoint hread => by simp [Numeral.toSingle?, hpoint, hread]

end Single

/-! ## Values -/

theorem DataType.ofName?_name (d : DataType) : DataType.ofName? d.name = some d := by cases d <;> decide

namespace Value

variable {v : Value}

/-- whether a number that it holds is neither an infinity nor a NaN -/
def isFinite : Value → Bool
  | .double a => a.isFinite
  | .float a => a.isFinite
  | _ => true

/-- what the data of the value reads as -/
def reread : Value → Option Value
  | .double a => a.reread.map .double
  | .float a => a.reread.map .float
  | v => some v

/-- whether the digits of a number that it holds read as that number, down to the last one -/
def isExact : Value → Bool
  | .double a => decide (a.reread = some a)
  | .float a => decide (a.reread = some a)
  | _ => true

theorem reread_of_isExact {v : Value} (h : v.isExact) : v.reread = some v := by
  cases v with
  | double a => rw [reread, of_decide_eq_true h, Option.map_some]
  | float a => rw [reread, of_decide_eq_true h, Option.map_some]
  | _ => rfl

-- 31.245270191439438 reads as the double after it
example : (Value.double ⟨0x403F3ECA06FAEA82⟩).reread = some (.double ⟨0x403F3ECA06FAEA83⟩) := by decide +kernel

theorem isSome_reread (v : Value) : v.reread.isSome = v.isFinite := by
  cases v with
  | double a => simp [reread, isFinite, a.isSome_reread]
  | float a => simp [reread, isFinite, a.isSome_reread]
  | _ => rfl

theorem ofContent?_contentJson (v : Value) : ofContent? v.dataType v.contentJson = v.reread := by
  cases v with
  | boolean b => rfl
  | date d => simp [ofContent?, dataType, contentJson, Json.ofString, Json.string?, LocalTime.ofText?_text, reread]
  | double a => simp [ofContent?, dataType, contentJson, Double.double?_toJson, reread]
  | float a => simp [ofContent?, dataType, contentJson, Single.single?_toJson, reread]
  | integer i => simp [ofContent?, dataType, contentJson, Json.int32?_ofInt, reread]
  | long l => simp [ofContent?, dataType, contentJson, Json.int64?_ofInt, reread]
  | string s => rfl

/-- **A value** is read from its data, but for the last digit of a number. -/
theorem ofJson?_toJson (kept : Bool) (v : Value) : ofJson? kept v.toJson = v.reread := by
  rw [ofJson?, toJson, Json.fields?_record (by simp) (by rfl)]
  show (DataType.ofName? v.dataType.name).bind (fun d => ofContent? d v.contentJson) = _
  rw [DataType.ofName?_name, Option.bind_some, ofContent?_contentJson]

theorem proper_toJson (v : Value) : v.toJson.Proper 1 := by
  refine Json.proper_record (List.forall_mem_cons.2 ⟨Json.proper_ofString _, List.forall_mem_singleton.2 ?_⟩)
  cases v with
  | boolean b => exact Json.proper_bool b
  | date d => exact Json.proper_ofString _
  | double a => exact a.proper_toJson
  | float a => exact a.proper_toJson
  | integer i =>
    have hlow := i.le_toInt
    have hhigh := i.toInt_lt
    exact Json.proper_ofInt (by omega)
  | long l =>
    have hlow := l.le_toInt
    have hhigh := l.toInt_lt
    exact Json.proper_ofInt (by omega)
  | string s => exact Json.proper_ofString _

end Value

end ConceptGraph
