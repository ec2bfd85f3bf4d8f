import Mathlib.Data.List.Nodup
import Mathlib.Tactic.TypeStar

/-!
# Structs as flat JSON objects

A struct is encoded as the object of its fields under their tags, without the empty ones that are
tagged `omitempty`, and decoded by looking its tags up again: a missing key leaves the zero value.
How objects become bytes is a `Codec`. A time is a string in a format of its own, and kept apart
from the others here.
-/

set_option autoImplicit false

namespace Json

variable {τ φ : Type*}

inductive Value (τ φ : Type*) where
  | string (text : String)
  | number (x : φ)
  | time (t : τ)
  deriving DecidableEq, Repr

abbrev Object (τ φ : Type*) := List (String × Value τ φ)

def field (key : String) (v : Value τ φ) : String × Option (Value τ φ) := (key, some v)

def omitEmpty (key text : String) : String × Option (Value τ φ) :=
  (key, if text = "" then none else some (.string text))

/-- The object of the fields that are not left out. -/
def object (fields : List (String × Option (Value τ φ))) : Object τ φ :=
  fields.filterMap fun f => f.2.map (f.1, ·)

theorem keys_object (fields : List (String × Option (Value τ φ))) :
    ((object fields).map Prod.fst).Sublist (fields.map Prod.fst) := by
  induction fields with
  | nil => exact .slnil
  | cons f fields ih =>
    obtain ⟨key, v⟩ := f
    cases v with
    | none => exact ih.cons key
    | some v => exact ih.cons_cons key

theorem mem_object {fields : List (String × Option (Value τ φ))} {key : String} {v : Value τ φ} :
    (key, v) ∈ object fields ↔ (key, some v) ∈ fields := by
  simp only [object, List.mem_filterMap, Option.map_eq_some_iff, Prod.mk.injEq, Prod.exists]
  constructor
  · rintro ⟨k, o, hmem, w, rfl, rfl, rfl⟩
    exact hmem
  · intro hmem
    exact ⟨key, some v, hmem, v, rfl, rfl, rfl⟩

theorem lookup_object {fields : List (String × Option (Value τ φ))}
    (hkeys : (fields.map Prod.fst).Nodup) (key : String) :
    (object fields).lookup key = (fields.lookup key).join := by
  induction fields with
  | nil => rfl
  | cons f fields ih =>
    obtain ⟨k, v⟩ := f
    obtain ⟨hnot, hrest⟩ := List.nodup_cons.mp hkeys
    rw [List.lookup_cons]
    by_cases hk : key = k
    · subst hk
      cases v with
      | none =>
        have hnone : (object fields).lookup key = none := by
          rw [List.lookup_eq_none_iff]
          rintro ⟨k', w⟩ hmem
          have hkey : k' ∈ fields.map Prod.fst := (keys_object fields).subset
            (List.mem_map.mpr ⟨(k', w), hmem, rfl⟩)
          simpa using fun heq : key = k' => hnot (heq ▸ hkey)
        simpa [object] using hnone
      | some v => simp [object]
    · have hbeq : (key == k) = false := by simpa using hk
      rw [hbeq]
      cases v with
      | none => exact ih hrest
      | some v =>
        rw [← ih hrest]
        simp [object, List.lookup_cons, hbeq]

namespace Object

variable (o : Object τ φ) (key : String)

def text : Option String :=
  match o.lookup key with
  | none => some ""
  | some (.string text) => some text
  | some _ => none

def number (zero : φ) : Option φ :=
  match o.lookup key with
  | none => some zero
  | some (.number x) => some x
  | some _ => none

def time (zero : τ) : Option τ :=
  match o.lookup key with
  | none => some zero
  | some (.time t) => some t
  | some _ => none

end Object

section Read

variable {fields : List (String × Option (Value τ φ))} (hkeys : (fields.map Prod.fst).Nodup)
variable {key : String}
include hkeys

theorem text_field {text : String} (h : fields.lookup key = some (field key (.string text)).2) :
    (object fields).text key = some text := by
  rw [Object.text, lookup_object hkeys, h]
  rfl

/-- A field that was left out is read back as empty, which it was. -/
theorem text_omitEmpty {text : String}
    (h : fields.lookup key = some (omitEmpty key text).2) :
    (object fields).text key = some text := by
  rw [Object.text, lookup_object hkeys, h]
  by_cases hempty : text = ""
  · simp [omitEmpty, hempty]
  · simp [omitEmpty, hempty]

theorem number_field {x : φ} (h : fields.lookup key = some (field key (.number x)).2) (zero : φ) :
    (object fields).number key zero = some x := by
  rw [Object.number, lookup_object hkeys, h]
  rfl

theorem time_field {t : τ} (h : fields.lookup key = some (field key (.time t)).2) (zero : τ) :
    (object fields).time key zero = some t := by
  rw [Object.time, lookup_object hkeys, h]
  rfl

end Read

/-- `encode` fails on what has no encoding. The `exact` times are told by their encoding. -/
structure Codec (τ φ : Type*) (exact : τ → Prop) where
  encode : Object τ φ → Option (List UInt8)
  decode : List UInt8 → Option (Object τ φ)
  decode_encode : ∀ {o : Object τ φ} {bytes : List UInt8}, (o.map Prod.fst).Nodup →
    (∀ key t, (key, .time t) ∈ o → exact t) → encode o = some bytes → decode bytes = some o

namespace Codec

variable {exact : τ → Prop}

def single [DecidableEq τ] [DecidableEq φ] (o : Object τ φ) (bytes : List UInt8) :
    Codec τ φ exact where
  encode o' := if o' = o then some bytes else none
  decode bytes' := if bytes' = bytes then some o else none
  decode_encode := by
    intro o' bytes' _ _ h
    split at h
    · rename_i heq
      rw [← Option.some.inj h, heq, if_pos rfl]
    · cases h

theorem decode_object (codec : Codec τ φ exact) {fields : List (String × Option (Value τ φ))}
    {bytes : List UInt8} (hkeys : (fields.map Prod.fst).Nodup)
    (hexact : ∀ key t, (key, some (.time t)) ∈ fields → exact t)
    (h : codec.encode (object fields) = some bytes) : codec.decode bytes = some (object fields) :=
  codec.decode_encode (hkeys.sublist (keys_object fields))
    (fun key t hmem => hexact key t (mem_object.mp hmem)) h

end Codec

end Json
