/-
  Foundation/Http.lean --- the header fields of a message.

  `HeaderMap` of the crate `http` keeps the fields of a message, several under one name
  perhaps.  The crate comes from outside: its map is a type `H` with the operations that are
  used, and `Lawful` is what its documentation says of them.
-/
import Ruproxy.Foundation.Text

set_option autoImplicit false

namespace Ruproxy.Foundation.Http

/-- `http::HeaderMap`, with the conversions of `http::HeaderValue`.  Names are in lower case,
and the values are their bytes. -/
class HeaderMap (H : Type) where
  new : H
  /-- `append`, which is what `header` of a builder does -/
  append : H → String → Bytes → H
  get : H → String → Option Bytes
  containsKey : H → String → Bool
  iter : H → List (String × Bytes)
  /-- `HeaderValue::try_from` of a text -/
  tryFrom : String → Option Bytes
  /-- `HeaderValue::to_str` -/
  toStr : Bytes → Option String

/-- A visible character of ASCII, or a blank. -/
def isVisible (b : UInt8) : Bool := (32 ≤ b && b < 127) || b == 9

section Operations

variable {H : Type} [HeaderMap H]

/-- The values of a name. -/
def getAll (headers : H) (name : String) : List Bytes :=
  ((HeaderMap.iter headers).filter fun field => field.1 = name).map Prod.snd

/-- `get(name).and_then(|v| v.to_str().ok()).unwrap_or("")`. -/
def text (headers : H) (name : String) : String :=
  ((HeaderMap.get headers name).bind (HeaderMap.toStr (H := H))).getD ""

/-- `for (name, value) in fields`, where `header` of a builder is called for each that is not
skipped. -/
def copy (skip : List String) (fields : List (String × Bytes)) (base : H) : H :=
  fields.foldl (fun headers field =>
    if field.1 ∈ skip then headers else HeaderMap.append headers field.1 field.2) base

end Operations

/-- What is said of the operations. -/
structure HeaderMap.Lawful (H : Type) [HeaderMap H] : Prop where
  getAll_new : ∀ name, getAll (new : H) name = []
  /-- a value is added behind those of its name -/
  getAll_append : ∀ (headers : H) name value name', getAll (append headers name value) name' =
    getAll headers name' ++ if name = name' then [value] else []
  get_eq : ∀ (headers : H) name, get headers name = (getAll headers name).head?
  containsKey_iff : ∀ (headers : H) name, containsKey headers name ↔ getAll headers name ≠ []
  tryFrom_eq : ∀ s value, tryFrom (H := H) s = some value → value = asBytes s
  /-- a value has a text if it has visible characters only -/
  toStr_eq_some_iff : ∀ value s, toStr (H := H) value = some s ↔
    value = asBytes s ∧ value.all isVisible

variable {H : Type} [HeaderMap H]

theorem getAll_copy (hlaws : HeaderMap.Lawful H) (skip : List String)
    (fields : List (String × Bytes)) (base : H) (name : String) :
    getAll (copy skip fields base) name = getAll base name ++
      if name ∈ skip then [] else (fields.filter fun field => field.1 = name).map Prod.snd := by
  induction fields generalizing base with
  | nil => simp [copy]
  | cons field fields ih =>
    unfold copy at ih ⊢
    rw [List.foldl_cons, ih]
    by_cases hskip : field.1 ∈ skip
    · rw [if_pos hskip]
      by_cases hname : field.1 = name
      · rw [if_pos (hname ▸ hskip), if_pos (hname ▸ hskip)]
      · rw [List.filter_cons_of_neg (by simpa using hname)]
    · rw [if_neg hskip, hlaws.getAll_append, List.append_assoc]
      by_cases hname : field.1 = name
      · rw [if_pos hname, if_neg (hname ▸ hskip), if_neg (hname ▸ hskip),
          List.filter_cons_of_pos (by simpa using hname)]
        rfl
      · rw [if_neg hname, List.filter_cons_of_neg (by simpa using hname)]
        rfl

/-- The fields of a message, but for some, as a message of their own. -/
theorem getAll_copy_new (hlaws : HeaderMap.Lawful H) (skip : List String) (headers : H)
    (name : String) : getAll (copy skip (HeaderMap.iter headers) (HeaderMap.new : H)) name =
      if name ∈ skip then [] else getAll headers name := by
  rw [getAll_copy hlaws, hlaws.getAll_new, List.nil_append, getAll]

/-- A text that is not empty is there in visible characters. -/
theorem text_eq_iff (hlaws : HeaderMap.Lawful H) {headers : H} {name s : String} (hs : s ≠ "") :
    text headers name = s ↔
      HeaderMap.get headers name = some (asBytes s) ∧ (asBytes s).all isVisible := by
  unfold text
  cases hget : HeaderMap.get headers name with
  | none =>
    simp only [Option.bind_none, Option.getD_none]
    exact iff_of_false hs.symm nofun
  | some value =>
    simp only [Option.bind_some, Option.some.injEq]
    constructor
    · intro h
      cases hstr : HeaderMap.toStr (H := H) value with
      | none =>
        rw [hstr] at h
        exact absurd h.symm hs
      | some d =>
        rw [hstr] at h
        obtain rfl : d = s := h
        obtain ⟨rfl, hvisible⟩ := (hlaws.toStr_eq_some_iff _ _).mp hstr
        exact ⟨rfl, hvisible⟩
    · rintro ⟨rfl, hvisible⟩
      rw [(hlaws.toStr_eq_some_iff _ _).mpr ⟨rfl, hvisible⟩]
      rfl

/-! ## Fields in a list -/

/-- The fields of a message in the order in which they were added. -/
abbrev Fields := List (String × Bytes)

instance : HeaderMap Fields where
  new := []
  append headers name value := headers ++ [(name, value)]
  get headers name := (headers.find? fun field => field.1 = name).map Prod.snd
  containsKey headers name := headers.any fun field => field.1 = name
  iter headers := headers
  tryFrom s :=
    if (asBytes s).all fun b => (32 ≤ b && b != 127) || b == 9 then some (asBytes s) else none
  toStr value := if value.all isVisible then fromUtf8 value else none

theorem fields_lawful : HeaderMap.Lawful Fields where
  getAll_new _ := rfl
  getAll_append headers name value name' := by
    by_cases h : name = name'
    · simp [getAll, HeaderMap.append, HeaderMap.iter, h]
    · simp [getAll, HeaderMap.append, HeaderMap.iter, h]
  get_eq headers name := by
    simp [getAll, HeaderMap.get, HeaderMap.iter, List.head?_map, List.head?_filter]
  containsKey_iff headers name := by
    simp [getAll, HeaderMap.containsKey, HeaderMap.iter]
  tryFrom_eq s value h := by
    simp only [HeaderMap.tryFrom] at h
    split at h
    · exact (Option.some.inj h).symm
    · cases h
  toStr_eq_some_iff value s := by
    simp only [HeaderMap.toStr]
    split
    · rename_i hvisible
      rw [fromUtf8_eq_some_iff, and_iff_left hvisible, eq_comm]
    · rename_i hvisible
      exact iff_of_false nofun fun h => hvisible h.2

end Ruproxy.Foundation.Http
