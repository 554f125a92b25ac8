import Mathlib.Data.List.Forall2
import Mathlib.Data.Option.Basic
import Mathlib.Data.Rat.Floor

set_option autoImplicit false

/-! # JSON values

A parsed JSON value, and how a C++ program reads it: fields of an object by name, and conversions to
strings, doubles and integers that fail on values of another type. A number keeps whether it was
written as an integer, since some readers accept only those. -/

/-- A parsed value. The fields of an object are kept in the order in which they came. -/
inductive Json
  | null
  | bool (b : Bool)
  /-- A number without a fraction and an exponent. -/
  | int (n : ℤ)
  /-- Any other number. -/
  | dec (q : ℚ)
  | str (s : String)
  | arr (items : List Json)
  | obj (fields : List (String × Json))

namespace Json

/-- The field of that name, of an object only. -/
def find? (j : Json) (key : String) : Option Json :=
  match j with
  | obj fields => (fields.find? (fun f => decide (f.1 = key))).map Prod.snd
  | _ => none

/-- Whether an object has a field of this name. -/
def contains (j : Json) (key : String) : Bool := (j.find? key).isSome

/-- Whether the value is `null`, which is not the same as a field that is missing. -/
def isNull : Json → Bool
  | null => true
  | _ => false

/-- Whether fields can be looked up at all. -/
def isObject : Json → Bool
  | obj _ => true
  | _ => false

/-! ## Conversions -/

/-- The value as a string. -/
def string? : Json → Option String
  | str s => some s
  | _ => none

/-- A number as a double. -/
def double? : Json → Option ℚ
  | int n => some n
  | dec q => some q
  | _ => none

/-- A double as an integer of `bits` bits: truncated, and what does not fit becomes the least. -/
def truncate (bits : ℕ) (q : ℚ) : ℤ :=
  let n := if 0 ≤ q then ⌊q⌋ else ⌈q⌉
  if -2 ^ (bits - 1) ≤ n ∧ n < 2 ^ (bits - 1) then n else -2 ^ (bits - 1)

/-- A number as an integer of `bits` bits. An integer of up to 64 bits is wrapped, a larger one was
    read as a double. -/
def integer? (bits : ℕ) : Json → Option ℤ
  | int n => some (if -2 ^ 63 ≤ n ∧ n < 2 ^ 64 then n.bmod (2 ^ bits) else truncate bits n)
  | dec q => some (truncate bits q)
  | _ => none

/-- An `int`, which a boolean converts to as well. -/
def int32? : Json → Option ℤ
  | bool b => some (if b then 1 else 0)
  | j => j.integer? 32

/-- A number written as an integer of 64 bits. -/
def int64? : Json → Option ℤ
  | int n => if -2 ^ 63 ≤ n ∧ n < 2 ^ 63 then some n else none
  | _ => none

/-- The items of an array. -/
def array? : Json → Option (List Json)
  | arr items => some items
  | _ => none

/-- `value(key, default)`: the field if there is one, of an object only. -/
def value? {α : Type} (j : Json) (key : String) (convert : Json → Option α) (default : α) : Option α :=
  match j with
  | obj fields =>
      match (obj fields).find? key with
      | some v => convert v
      | none => some default
  | _ => none

/-- The value as a truth value. Numbers are not converted. -/
def bool? : Json → Option Bool
  | bool b => some b
  | _ => none

/-! ## Fields -/

theorem find?_cons {f : String × Json} {fields : List (String × Json)} {key : String} :
    (obj (f :: fields)).find? key = if f.1 = key then some f.2 else (obj fields).find? key := by
  by_cases h : f.1 = key
  · simp [find?, h]
  · simp [find?, h]

theorem value?_obj {α : Type} {fields : List (String × Json)} {key : String}
    {convert : Json → Option α} {default : α} :
    (obj fields).value? key convert default
      = ((obj fields).find? key).elim (some default) convert := by
  unfold value?
  dsimp only
  cases (obj fields).find? key <;> rfl

theorem contains_iff {j : Json} {key : String} : j.contains key = true ↔ ∃ v, j.find? key = some v :=
  Option.isSome_iff_exists

/-! ## JSON values up to the order of their fields

A library that keeps objects sorted writes and reads the fields in another order than a program lists
them. `Same` values differ in nothing else, so that readers that look fields up by name read the same
from them. -/

/-- Two values differ at most in the order of the fields of their objects. -/
inductive Same : Json → Json → Prop
  | null : Same null null
  | bool (b : Bool) : Same (bool b) (bool b)
  | int (n : ℤ) : Same (int n) (int n)
  | dec (q : ℚ) : Same (dec q) (dec q)
  | str (s : String) : Same (str s) (str s)
  | arr {items items' : List Json} (h : List.Forall₂ Same items items') : Same (arr items) (arr items')
  | obj {fields fields' : List (String × Json)}
      (h : ∀ key, Option.Rel Same ((obj fields).find? key) ((obj fields').find? key)) :
      Same (obj fields) (obj fields')

theorem sizeOf_find?_lt {fields : List (String × Json)} {key : String} {v : Json}
    (h : (obj fields).find? key = some v) : sizeOf v < sizeOf (obj fields) := by
  obtain ⟨f, hf, rfl⟩ := Option.map_eq_some_iff.1 h
  have hmem : sizeOf f < sizeOf fields := List.sizeOf_lt_of_mem (List.mem_of_find?_eq_some hf)
  obtain ⟨k, v⟩ := f
  simp only [Prod.mk.sizeOf_spec, obj.sizeOf_spec] at hmem ⊢
  omega

theorem Same.refl : ∀ j : Json, Same j j
  | .null => .null
  | .bool b => .bool b
  | .int n => .int n
  | .dec q => .dec q
  | .str s => .str s
  | .arr items => .arr (List.forall₂_same.2 fun item hmem => Same.refl item)
  | .obj fields => .obj fun key => by
      cases hfind : (Json.obj fields).find? key with
      | none => exact .none
      | some v => exact .some (Same.refl v)
termination_by j => sizeOf j
decreasing_by
  · have hlt := List.sizeOf_lt_of_mem hmem
    simp only [Json.arr.sizeOf_spec]
    omega
  · exact sizeOf_find?_lt hfind

variable {j j' : Json} {α : Type}

theorem find?_eq_none_of_forall {fields : List (String × Json)} {key : String}
    (h : ∀ f ∈ fields, f.1 ≠ key) : (obj fields).find? key = none := by
  have hnone : fields.find? (fun f => decide (f.1 = key)) = none :=
    List.find?_eq_none.2 fun f hf => by simpa using h f hf
  rw [Json.find?, hnone, Option.map_none]

/-- Objects with the same keys are the same if their values for these are. -/
theorem Same.obj_of_keys {fields fields' : List (String × Json)} (keys : List String)
    (hkeys : ∀ f ∈ fields, f.1 ∈ keys) (hkeys' : ∀ f ∈ fields', f.1 ∈ keys)
    (h : ∀ key ∈ keys, Option.Rel Same ((Json.obj fields).find? key) ((Json.obj fields').find? key)) :
    Same (Json.obj fields) (Json.obj fields') := by
  refine .obj fun key => ?_
  by_cases hkey : key ∈ keys
  · exact h key hkey
  · have hnone : (Json.obj fields).find? key = none :=
      find?_eq_none_of_forall fun f hf heq => hkey (heq ▸ hkeys f hf)
    have hnone' : (Json.obj fields').find? key = none :=
      find?_eq_none_of_forall fun f hf heq => hkey (heq ▸ hkeys' f hf)
    rw [hnone, hnone']
    exact .none

theorem Same.find? (h : Same j j') (key : String) : Option.Rel Same (j.find? key) (j'.find? key) := by
  cases h with
  | obj h => exact h key
  | _ => exact .none

theorem Same.string? (h : Same j j') : j.string? = j'.string? := by cases h <;> rfl

theorem Same.double? (h : Same j j') : j.double? = j'.double? := by cases h <;> rfl

theorem Same.integer? (h : Same j j') (bits : ℕ) : j.integer? bits = j'.integer? bits := by
  cases h <;> rfl

theorem Same.int32? (h : Same j j') : j.int32? = j'.int32? := by cases h <;> rfl

theorem Same.bool? (h : Same j j') : j.bool? = j'.bool? := by cases h <;> rfl

theorem Same.isNull (h : Same j j') : j.isNull = j'.isNull := by cases h <;> rfl

theorem elim_eq_of_rel {o o' : Option Json} (h : Option.Rel Same o o') (x : Option α)
    {f f' : Json → Option α} (hf : ∀ v v', Same v v' → f v = f' v') : o.elim x f = o'.elim x f' := by
  cases h with
  | none => rfl
  | some hv => exact hf _ _ hv

/-- A field is read in the same way if its value is. -/
theorem Same.bind_find? (h : Same j j') (key : String) {f f' : Json → Option α}
    (hf : ∀ v v', Same v v' → f v = f' v') : (j.find? key).bind f = (j'.find? key).bind f' := by
  have hbind (o : Option Json) (g : Json → Option α) : o.bind g = o.elim none g := by
    cases o <;> rfl
  rw [hbind, hbind]
  exact elim_eq_of_rel (h.find? key) none hf

theorem Same.value? (h : Same j j') (key : String) (default : α) {convert : Json → Option α}
    (hf : ∀ v v', Same v v' → convert v = convert v') :
    j.value? key convert default = j'.value? key convert default := by
  cases h with
  | @obj fields fields' h =>
      rw [value?_obj, value?_obj]
      exact elim_eq_of_rel (h key) (some default) hf
  | _ => rfl

/-- The same for a field whose value is converted before it is used. -/
theorem Same.bind_field {β : Type} (h : Same j j') (key : String) {convert : Json → Option β}
    (hconvert : ∀ v v', Same v v' → convert v = convert v') {f f' : β → Option α} (hf : ∀ b, f b = f' b) :
    ((j.find? key).bind fun v => (convert v).bind f) = (j'.find? key).bind fun v => (convert v).bind f' :=
  h.bind_find? key fun v v' hv => by rw [hconvert v v' hv, funext hf]

/-- The same for a field with a default value. -/
theorem Same.bind_value {β : Type} (h : Same j j') (key : String) (default : β)
    {convert : Json → Option β} (hconvert : ∀ v v', Same v v' → convert v = convert v')
    {f f' : β → Option α} (hf : ∀ b, f b = f' b) :
    (j.value? key convert default).bind f = (j'.value? key convert default).bind f' := by
  rw [h.value? key default hconvert, funext hf]

theorem Same.mapM (f : Json → Option α) (hf : ∀ v v', Same v v' → f v = f v') {items items' : List Json}
    (h : List.Forall₂ Same items items') : items.mapM f = items'.mapM f := by
  induction h with
  | nil => rfl
  | cons hv _ ih => rw [List.mapM_cons, List.mapM_cons, hf _ _ hv, ih]

/-- An array is read in the same way if its items are. -/
theorem Same.array_mapM (h : Same j j') (f : Json → Option α) (hf : ∀ v v', Same v v' → f v = f v') :
    (j.array?.bind fun items => items.mapM f) = j'.array?.bind fun items => items.mapM f := by
  cases h with
  | arr h => exact Same.mapM f hf h
  | _ => rfl

/-- The same for a field that holds an array, whose items are read before it is used. -/
theorem Same.bind_array {β : Type} (h : Same j j') (key : String) {read : Json → Option β}
    (hread : ∀ v v', Same v v' → read v = read v') {f f' : List β → Option α} (hf : ∀ bs, f bs = f' bs) :
    ((j.find? key).bind fun v => v.array?.bind fun items => (items.mapM read).bind f)
      = (j'.find? key).bind fun v => v.array?.bind fun items => (items.mapM read).bind f' := by
  refine h.bind_find? key fun v v' hv => ?_
  rw [← Option.bind_assoc, ← Option.bind_assoc, hv.array_mapM read hread, funext hf]

/-! ### Integers of a width -/

theorem bmod_of_mem {bits : ℕ} {n : ℤ} (hbits : 0 < bits) (hlow : -2 ^ (bits - 1) ≤ n)
    (hhigh : n < 2 ^ (bits - 1)) : n.bmod (2 ^ bits) = n := by
  have hpow : (2 : ℤ) ^ bits = 2 * 2 ^ (bits - 1) := by
    rw [← pow_succ', Nat.sub_add_cancel hbits]
  refine Int.bmod_eq_of_le_mul_two ?_ ?_ <;> push_cast <;> omega

end Json
