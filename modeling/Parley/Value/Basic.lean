import Parley.Number.Binary64
import Parley.Value.Fields

/-!
# Values

Loosely typed values: session variables, contract records, request bodies and authored documents.
Objects keep the order of their entries. Whole numbers are unbounded and differ from binary64
numbers as data, though both compare as numbers (`Value.same`).
-/

namespace Parley

/-- A loosely typed value. -/
inductive Value where
  | null
  | bool (b : Bool)
  | int (n : Int)
  | float (x : Binary64)
  | text (s : String)
  | list (items : List Value)
  | object (fields : List (String × Value))
  deriving Inhabited, Repr

/-- Named values. -/
abbrev Fields := Entries Value

namespace Value

/-- The value counts as present: neither null, false, zero nor empty. -/
def isTruthy : Value → Bool
  | .null => false
  | .bool b => b
  | .int n => n != 0
  | .float x => !x.same Binary64.zero
  | .text s => s != ""
  | .list items => !items.isEmpty
  | .object fields => !fields.isEmpty

/-- The word that messages use for the kind of a value. -/
def kindWord : Value → String
  | .null => "NoneType"
  | .bool _ => "bool"
  | .int _ => "int"
  | .float _ => "float"
  | .text _ => "str"
  | .list _ => "list"
  | .object _ => "dict"

/-- The text of a text value. -/
def asText? : Value → Option String
  | .text s => some s
  | _ => none

/-- The entries of an object. -/
def asObject? : Value → Option Fields
  | .object fields => some fields
  | _ => none

/-- The items of a list. -/
def asList? : Value → Option (List Value)
  | .list items => some items
  | _ => none

/-- The whole number that a number or truth value stands for. -/
def asWhole? : Value → Option Int
  | .bool b => some (if b then 1 else 0)
  | .int n => some n
  | _ => none

/-- The entry of an object under a name. -/
def field? (v : Value) (name : String) : Option Value := v.asObject?.bind (·.get? name)

/-- A value that need not be given; null when it is not. -/
def ofOption {α : Type} (f : α → Value) : Option α → Value
  | none => .null
  | some a => f a

/-- Texts as a list value. -/
def texts (ss : List String) : Value := .list (ss.map .text)

mutual

/-- Equality of values: numbers and truth values compare as numbers, objects without regard to
order. -/
def same : Value → Value → Bool
  | .null, .null => true
  | .text a, .text b => a == b
  | .list as, .list bs => sameItems as bs
  | .object as, .object bs => as.length == bs.length && sameFields as bs
  | .float x, .float y => x.same y
  | .float x, b => match b.asWhole? with
    | some n => x.compareInt? n == some .eq
    | none => false
  | a, .float y => match a.asWhole? with
    | some n => y.compareInt? n == some .eq
    | none => false
  | a, b => match a.asWhole?, b.asWhole? with
    | some m, some n => m == n
    | _, _ => false

/-- Lists are equal item by item. -/
def sameItems : List Value → List Value → Bool
  | [], [] => true
  | a :: as, b :: bs => same a b && sameItems as bs
  | _, _ => false

/-- Every entry of the first object has an equal entry in the second. -/
def sameFields : Entries Value → Entries Value → Bool
  | [], _ => true
  | (k, a) :: rest, bs =>
    (match Entries.get? bs k with
      | some b => same a b
      | none => false) && sameFields rest bs

end

/-! ### Dumps

A dump of a record writes the loosely typed values that the record holds. A number that is not
finite becomes null there, and a value that nests too deep cannot be written at all. -/

mutual

/-- The value as a dump has it: null in the place of every number that is not finite. -/
def dumped : Value → Value
  | .float x => if x.isFinite then .float x else .null
  | .list items => .list (dumpedItems items)
  | .object fields => .object (dumpedFields fields)
  | v => v

/-- The items of a list as a dump has them. -/
def dumpedItems : List Value → List Value
  | [] => []
  | v :: rest => dumped v :: dumpedItems rest

/-- The entries of an object as a dump has them. -/
def dumpedFields : Fields → Fields
  | [] => []
  | (name, v) :: rest => (name, dumped v) :: dumpedFields rest

end

mutual

/-- All numbers of the value are finite. -/
def isFinite : Value → Bool
  | .float x => x.isFinite
  | .list items => itemsFinite items
  | .object fields => fieldsFinite fields
  | _ => true

/-- All numbers of the items are finite. -/
def itemsFinite : List Value → Bool
  | [] => true
  | v :: rest => isFinite v && itemsFinite rest

/-- All numbers of the entries are finite. -/
def fieldsFinite : Fields → Bool
  | [] => true
  | (_, v) :: rest => isFinite v && fieldsFinite rest

end

mutual

/-- How deep a value nests: a value without parts counts one. -/
def depth : Value → Nat
  | .list items => depthItems items + 1
  | .object fields => depthFields fields + 1
  | _ => 1

/-- How deep the deepest item nests. -/
def depthItems : List Value → Nat
  | [] => 0
  | v :: rest => max (depth v) (depthItems rest)

/-- How deep the deepest entry nests. -/
def depthFields : Fields → Nat
  | [] => 0
  | (_, v) :: rest => max (depth v) (depthFields rest)

end

/-- An entry may be replaced by one that nests as deep. -/
theorem depthFields_put_congr (fields : Fields) (name : String) {v w : Value}
    (h : v.depth = w.depth) :
    depthFields (fields.put name v) = depthFields (fields.put name w) := by
  induction fields with
  | nil => simp only [Entries.put, depthFields, h]
  | cons e rest ih =>
    obtain ⟨k, x⟩ := e
    rw [Entries.put, Entries.put]
    split
    · rw [depthFields, depthFields, h]
    · rw [depthFields, depthFields, ih]

/-- The deepest nesting that is written. -/
def depthLimit : Nat := 255

/-- The value can be written. -/
def fits (v : Value) : Bool := v.depth ≤ depthLimit

/-- Every entry can be written. -/
def fieldsFit (fields : Fields) : Bool := depthFields fields ≤ depthLimit

/-- A list is finite when its items are. -/
theorem isFinite_list_iff {items : List Value} :
    (list items).isFinite = true ↔ ∀ v ∈ items, v.isFinite = true := by
  rw [isFinite]
  induction items with
  | nil => exact iff_of_true rfl nofun
  | cons v rest ih => rw [itemsFinite, Bool.and_eq_true, ih, List.forall_mem_cons]

/-- An object is finite when its values are. -/
theorem isFinite_object_iff {fields : Fields} :
    (object fields).isFinite = true ↔ ∀ e ∈ fields, e.2.isFinite = true := by
  rw [isFinite]
  induction fields with
  | nil => exact iff_of_true rfl nofun
  | cons e rest ih => rw [fieldsFinite, Bool.and_eq_true, ih, List.forall_mem_cons]

/-- A list in a list, and so on. -/
def nested : Nat → Value
  | 0 => .list []
  | n + 1 => .list [nested n]

/-- Lists in a list are one deeper than they are many. -/
theorem depth_nested (n : Nat) : (nested n).depth = n + 1 := by
  induction n with
  | zero => rfl
  | succ n ih => rw [nested, depth, depthItems, depthItems, ih, Nat.max_zero]

theorem isFinite_nested (n : Nat) : (nested n).isFinite = true := by
  induction n with
  | zero => rfl
  | succ n ih => rw [nested, isFinite, itemsFinite, itemsFinite, ih, Bool.and_self]

/-- Of lists in lists no more are written than the limit. -/
theorem fits_nested_iff (n : Nat) : (nested n).fits = true ↔ n < depthLimit := by
  rw [fits, depth_nested, decide_eq_true_iff, Nat.succ_le_iff]

mutual

/-- A dump has nothing more to leave out. -/
@[simp] theorem dumped_dumped : ∀ v : Value, v.dumped.dumped = v.dumped
  | .null | .bool _ | .int _ | .text _ => rfl
  | .float x => by
    cases h : x.isFinite <;> simp [dumped, h]
  | .list items => by rw [dumped, dumped, dumpedItems_dumpedItems]
  | .object fields => by rw [dumped, dumped, dumpedFields_dumpedFields]

@[simp] theorem dumpedItems_dumpedItems : ∀ items : List Value,
    dumpedItems (dumpedItems items) = dumpedItems items
  | [] => rfl
  | v :: rest => by rw [dumpedItems, dumpedItems, dumped_dumped v, dumpedItems_dumpedItems rest]

@[simp] theorem dumpedFields_dumpedFields : ∀ fields : Fields,
    dumpedFields (dumpedFields fields) = dumpedFields fields
  | [] => rfl
  | (name, v) :: rest => by
    rw [dumpedFields, dumpedFields, dumped_dumped v, dumpedFields_dumpedFields rest]

end

mutual

/-- A value whose numbers are all finite is its dump. -/
theorem dumped_of_isFinite : ∀ {v : Value}, v.isFinite = true → v.dumped = v
  | .null, _ | .bool _, _ | .int _, _ | .text _, _ => rfl
  | .float _, h => if_pos h
  | .list items, h => by rw [dumped, dumpedItems_of_itemsFinite (by simpa [isFinite] using h)]
  | .object fields, h => by rw [dumped, dumpedFields_of_fieldsFinite (by simpa [isFinite] using h)]

theorem dumpedItems_of_itemsFinite : ∀ {items : List Value},
    itemsFinite items = true → dumpedItems items = items
  | [], _ => rfl
  | v :: rest, h => by
    rw [itemsFinite, Bool.and_eq_true] at h
    rw [dumpedItems, dumped_of_isFinite h.1, dumpedItems_of_itemsFinite h.2]

theorem dumpedFields_of_fieldsFinite : ∀ {fields : Fields},
    fieldsFinite fields = true → dumpedFields fields = fields
  | [], _ => rfl
  | (name, v) :: rest, h => by
    rw [fieldsFinite, Bool.and_eq_true] at h
    rw [dumpedFields, dumped_of_isFinite h.1, dumpedFields_of_fieldsFinite h.2]

end

/-- The entry of a dump is the dump of the entry. -/
theorem get?_dumpedFields (fields : Fields) (name : String) :
    (dumpedFields fields).get? name = (fields.get? name).map dumped := by
  induction fields with
  | nil => rfl
  | cons e rest ih =>
    obtain ⟨k, v⟩ := e
    rw [dumpedFields, Entries.get?, Entries.get?]
    split
    · rfl
    · exact ih

/-- Entries are dumped one by one. -/
theorem dumpedFields_put (fields : Fields) (name : String) (v : Value) :
    dumpedFields (fields.put name v) = (dumpedFields fields).put name v.dumped := by
  induction fields with
  | nil => rfl
  | cons e rest ih =>
    obtain ⟨k, w⟩ := e
    rw [dumpedFields, Entries.put, Entries.put]
    split
    · rfl
    · rw [dumpedFields, ih]

mutual

/-- A dump nests as deep as the value. -/
@[simp] theorem depth_dumped : ∀ v : Value, v.dumped.depth = v.depth
  | .null | .bool _ | .int _ | .text _ => rfl
  | .float x => by
    cases h : x.isFinite <;> simp [dumped, depth, h]
  | .list items => by rw [dumped, depth, depth, depthItems_dumpedItems items]
  | .object fields => by rw [dumped, depth, depth, depthFields_dumpedFields fields]

@[simp] theorem depthItems_dumpedItems : ∀ items : List Value,
    depthItems (dumpedItems items) = depthItems items
  | [] => rfl
  | v :: rest => by
    rw [dumpedItems, depthItems, depthItems, depth_dumped v, depthItems_dumpedItems rest]

@[simp] theorem depthFields_dumpedFields : ∀ fields : Fields,
    depthFields (dumpedFields fields) = depthFields fields
  | [] => rfl
  | (_, v) :: rest => by
    rw [dumpedFields, depthFields, depthFields, depth_dumped v, depthFields_dumpedFields rest]

end

end Value
end Parley
