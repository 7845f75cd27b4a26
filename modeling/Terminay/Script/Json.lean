import Mathlib.Data.Rat.Defs
import Terminay.Lib.Table
import Terminay.Script.Text

/-!
# JSON values and the engine's numbers

`ν` is the type of the engine's finite numbers, `-0` and `0` being one of them.
What a number denotes and how it prints are the engine's; so is case folding.
An object lists its own fields. Values read from the wire list them in key order,
so on these structural equality is `sameJson` of the source.
-/

namespace Terminay.Script

/-- What `Number(text)` answers. -/
inductive Numeric (ν : Type) where
  | finite (n : ν)
  | infinite (positive : Bool)
  | nan

class Engine (ν : Type) where
  decEq : DecidableEq ν
  value : ν → ℚ
  /-- The number a numeric literal of the source denotes. -/
  literal : ℚ → ν
  /-- `Number::toString`, which is also what `JSON.stringify` writes. -/
  print : ν → Str
  read : Str → Numeric ν
  toLowerCase : Str → Str

instance {ν : Type} [Engine ν] : DecidableEq ν := Engine.decEq

inductive Json (ν : Type) where
  | null
  | bool (b : Bool)
  | num (n : ν)
  | str (s : Str)
  | arr (items : List (Json ν))
  | obj (fields : List (Str × Json ν))

variable {ν : Type}

section Equality
variable [DecidableEq ν]

mutual
def sameJson : Json ν → Json ν → Bool
  | .null, .null => true
  | .bool a, .bool b => a == b
  | .num a, .num b => decide (a = b)
  | .str a, .str b => a == b
  | .arr as, .arr bs => sameItems as bs
  | .obj as, .obj bs => sameFields as bs
  | _, _ => false
def sameItems : List (Json ν) → List (Json ν) → Bool
  | [], [] => true
  | a :: as, b :: bs => sameJson a b && sameItems as bs
  | _, _ => false
def sameFields : List (Str × Json ν) → List (Str × Json ν) → Bool
  | [], [] => true
  | (k, a) :: as, (l, b) :: bs => k == l && sameJson a b && sameFields as bs
  | _, _ => false
end

mutual
theorem sameJson_iff : ∀ a b : Json ν, sameJson a b = true ↔ a = b
  | .null, b => by cases b <;> simp [sameJson]
  | .bool a, b => by cases b <;> simp [sameJson]
  | .num a, b => by cases b <;> simp [sameJson]
  | .str a, b => by cases b <;> simp [sameJson]
  | .arr as, b => by
    cases b with
    | arr bs => simpa [sameJson] using sameItems_iff as bs
    | _ => simp [sameJson]
  | .obj as, b => by
    cases b with
    | obj bs => simpa [sameJson] using sameFields_iff as bs
    | _ => simp [sameJson]
theorem sameItems_iff : ∀ as bs : List (Json ν), sameItems as bs = true ↔ as = bs
  | [], bs => by cases bs <;> simp [sameItems]
  | a :: as, bs => by
    cases bs with
    | nil => simp [sameItems]
    | cons b bs => simp [sameItems, sameJson_iff a b, sameItems_iff as bs]
theorem sameFields_iff : ∀ as bs : List (Str × Json ν), sameFields as bs = true ↔ as = bs
  | [], bs => by cases bs <;> simp [sameFields]
  | (k, a) :: as, bs => by
    cases bs with
    | nil => simp [sameFields]
    | cons e bs =>
      obtain ⟨l, b⟩ := e
      simp [sameFields, sameJson_iff a b, sameFields_iff as bs]
end

instance : DecidableEq (Json ν) := fun a b => decidable_of_iff _ (sameJson_iff a b)

end Equality

section Induction
variable {P : Json ν → Prop}

mutual
theorem Json.induct (scalar : ∀ j, (∀ items, j ≠ .arr items) → (∀ fields, j ≠ .obj fields) → P j)
    (arr : ∀ items, (∀ a ∈ items, P a) → P (.arr items))
    (obj : ∀ fields, (∀ e ∈ fields, P e.2) → P (.obj fields)) : ∀ j : Json ν, P j
  | .arr items => arr items (items_induct scalar arr obj items)
  | .obj fields => obj fields (fields_induct scalar arr obj fields)
  | .null => scalar _ nofun nofun
  | .bool _ => scalar _ nofun nofun
  | .num _ => scalar _ nofun nofun
  | .str _ => scalar _ nofun nofun
theorem items_induct (scalar : ∀ j, (∀ items, j ≠ .arr items) → (∀ fields, j ≠ .obj fields) → P j)
    (arr : ∀ items, (∀ a ∈ items, P a) → P (.arr items))
    (obj : ∀ fields, (∀ e ∈ fields, P e.2) → P (.obj fields)) :
    ∀ items : List (Json ν), ∀ a ∈ items, P a
  | [] => nofun
  | a :: as =>
    List.forall_mem_cons.mpr ⟨Json.induct scalar arr obj a, items_induct scalar arr obj as⟩
theorem fields_induct (scalar : ∀ j, (∀ items, j ≠ .arr items) → (∀ fields, j ≠ .obj fields) → P j)
    (arr : ∀ items, (∀ a ∈ items, P a) → P (.arr items))
    (obj : ∀ fields, (∀ e ∈ fields, P e.2) → P (.obj fields)) :
    ∀ fields : List (Str × Json ν), ∀ e ∈ fields, P e.2
  | [] => nofun
  | (_, a) :: es =>
    List.forall_mem_cons.mpr ⟨Json.induct scalar arr obj a, fields_induct scalar arr obj es⟩
end

end Induction

/-- The fields of an object as a dictionary; an absent field reads `undefined`. -/
abbrev Fields (ν : Type) := Table.Of Str (Json ν)

def Fields.at (f : Fields ν) (key : String) : Option (Json ν) := f[js key]?

/-- `typeof value === 'object'`, not null and not an array, as a dictionary. -/
def Json.object? : Json ν → Option (Fields ν)
  | .obj fields => some (Table.ofEntries fields)
  | _ => none

def Json.str? : Json ν → Option Str
  | .str s => some s
  | _ => none

def Json.items? : Json ν → Option (List (Json ν))
  | .arr items => some items
  | _ => none

def Json.num? : Json ν → Option ν
  | .num n => some n
  | _ => none

/-- `value ?? fallback`: absent and null both take the fallback. -/
def orElse (value : Option (Json ν)) (fallback : Json ν) : Json ν :=
  match value with
  | none | some .null => fallback
  | some j => j

/-- A list of strings, absent when some item is not one. -/
def Json.strings? (j : Json ν) : Option (List Str) :=
  j.items?.bind fun items => items.mapM Json.str?

section Engine
variable [Engine ν]

def maxSafeInteger : ℕ := 2 ^ 53 - 1

def safeInteger? (n : ν) : Option ℤ :=
  let q := Engine.value n
  if q.den = 1 ∧ q.num.natAbs ≤ maxSafeInteger then some q.num else none

/-- A JSON number that is a safe integer and not negative. -/
def Json.uint? (j : Json ν) : Option ℕ :=
  match j.num?.bind safeInteger? with
  | some (.ofNat n) => some n
  | _ => none

mutual
/-- `String(value)`, the key a value names when it indexes an object. -/
def Json.text : Json ν → Str
  | .null => js "null"
  | .bool b => if b then js "true" else js "false"
  | .num n => Engine.print n
  | .str s => s
  | .arr items => joined items
  | .obj _ => js "[object Object]"
def joined : List (Json ν) → Str
  | [] => []
  | [a] => entry a
  | a :: b :: as => entry a ++ js "," ++ joined (b :: as)
def entry : Json ν → Str
  | .null => []
  | .bool b => if b then js "true" else js "false"
  | .num n => Engine.print n
  | .str s => s
  | .arr items => joined items
  | .obj _ => js "[object Object]"
end

mutual
/-- An object that hides `toString` behind a field has no primitive value. -/
def Json.hasPrimitive : Json ν → Bool
  | .arr items => allPrimitive items
  | .obj fields => fields.all fun e => e.1 != js "toString"
  | _ => true
def allPrimitive : List (Json ν) → Bool
  | [] => true
  | a :: as => a.hasPrimitive && allPrimitive as
end

def propertyKey (value : Option (Json ν)) : Str :=
  match value with
  | none => js "undefined"
  | some j => j.text

@[simp] theorem propertyKey_str (s : Str) : propertyKey (some (.str s : Json ν)) = s := by
  simp [propertyKey, Json.text]

end Engine

end Terminay.Script
