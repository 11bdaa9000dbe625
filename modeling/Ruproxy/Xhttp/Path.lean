/-
  Xhttp/Path.lean --- the paths of requests.

  A request names its session and its packet behind the configured path.
  `normalized_path` puts that path between slashes, `parse_path` takes it off.  For a
  path without segments, such as the default `/`, the normal form has two slashes, and
  no request of a client begins with it.
-/
import Ruproxy.Foundation.Text

set_option autoImplicit false

namespace Ruproxy.Xhttp

open Ruproxy.Foundation

/-! ## The functions of `str` -/

/-- `str::trim_end_matches`. -/
def trimEndMatches (c : Char) (s : String) : String :=
  String.ofList (s.toList.reverse.dropWhile (· == c)).reverse

/-- `str::trim_start_matches`. -/
def trimStartMatches (c : Char) (s : String) : String :=
  String.ofList (s.toList.dropWhile (· == c))

/-- `str::strip_prefix`. -/
def stripPrefix (s p : String) : Option String :=
  if p.toList <+: s.toList then some (String.ofList (s.toList.drop p.toList.length)) else none

/-- `str::splitn` into at most two parts. -/
def splitn2 (c : Char) (s : String) : String × Option String :=
  match splitOnce c s with
  | some (first, second) => (first, some second)
  | none => (s, none)

/-! ## The paths -/

/-- `XhttpConfig::normalized_path`. -/
def normalizedPath (path : String) : String :=
  let p := trimEndMatches '/' path
  let p := if p.toList.head? = some '/' then p else "/" ++ p
  p ++ "/"

/-- `filter(|s| !s.is_empty())`. -/
def nonEmpty (s : String) : Option String := if s = "" then none else some s

/-- `parse_path`: the session id and the sequence number of a request path. -/
def parsePath (reqPath basePath : String) : Option (Option String × Option String) :=
  let baseNoSlash := trimEndMatches '/' basePath
  let rest :=
    if reqPath = baseNoSlash ∨ reqPath = basePath then some ""
    else (stripPrefix reqPath basePath).map (trimStartMatches '/')
  match rest with
  | none => none
  | some rest =>
      if rest = "" then some (none, none)
      else
        let parts := splitn2 '/' rest
        some (nonEmpty parts.1, parts.2.bind nonEmpty)

/-! ## The law -/

/-- A part of a path: not empty, and without a slash. -/
structure Segment where
  text : String
  ne_nil : text.toList ≠ []
  noSlash : '/' ∉ text.toList

/-- The segments with a slash before each. -/
def rootOf : List Segment → String
  | [] => ""
  | s :: segs => "/" ++ s.text ++ rootOf segs

/-- The segments with a slash between them. -/
def joined : List Segment → String
  | [] => ""
  | s :: segs => s.text ++ rootOf segs

/-- A path as it stands in the configuration. -/
def configured (segs : List Segment) (leading trailing : Bool) : String :=
  (if leading then "/" else "") ++ joined segs ++ if trailing then "/" else ""

/-- Requests are matched against the configured path by its segments. -/
structure PathLaw (segs : List Segment) (leading trailing : Bool) : Prop where
  session : ∀ sid : Segment,
    parsePath (rootOf segs ++ "/" ++ sid.text)
      (normalizedPath (configured segs leading trailing)) = some (some sid.text, none)
  packet : ∀ sid seq : Segment,
    parsePath (rootOf segs ++ "/" ++ sid.text ++ "/" ++ seq.text)
      (normalizedPath (configured segs leading trailing)) = some (some sid.text, some seq.text)
  bare : parsePath (rootOf segs) (normalizedPath (configured segs leading trailing)) =
    some (none, none)
  slash : parsePath (rootOf segs ++ "/") (normalizedPath (configured segs leading trailing)) =
    some (none, none)
  others : ∀ req, req ≠ rootOf segs → ¬ (rootOf segs ++ "/").toList <+: req.toList →
    parsePath req (normalizedPath (configured segs leading trailing)) = none

/-! ## Trimming and splitting -/

/-- What ends with another character is all that is left of it and `c`s behind it. -/
theorem trimEndMatches_append {c d : Char} (hd : d ≠ c) {s t : String} {l : List Char}
    (hs : s.toList = l ++ [d]) (ht : ∀ x ∈ t.toList, x = c) :
    trimEndMatches c (s ++ t) = s := by
  have hall : ∀ x ∈ t.toList.reverse, (x == c) = true := fun x hx =>
    beq_iff_eq.mpr (ht x (List.mem_reverse.mp hx))
  apply String.toList_injective
  rw [trimEndMatches, String.toList_ofList, String.toList_append, List.reverse_append,
    List.dropWhile_append_of_pos hall, hs, List.reverse_append, List.reverse_singleton,
    List.singleton_append, List.dropWhile_cons, if_neg (by simpa using hd), List.reverse_cons,
    List.reverse_reverse]

/-- Nothing is trimmed in front of another character. -/
theorem trimStartMatches_eq_self {c d : Char} (hd : d ≠ c) {s : String} {l : List Char}
    (hs : s.toList = d :: l) : trimStartMatches c s = s := by
  apply String.toList_injective
  rw [trimStartMatches, String.toList_ofList, hs, List.dropWhile_cons,
    if_neg (by simpa using hd)]

theorem stripPrefix_append (p s : String) : stripPrefix (p ++ s) p = some s := by
  rw [stripPrefix, if_pos (by rw [String.toList_append]; exact List.prefix_append _ _),
    String.toList_append, List.drop_left, String.ofList_toList]

theorem splitn2_of_not_mem {c : Char} {s : String} (h : c ∉ s.toList) :
    splitn2 c s = (s, none) := by
  rw [splitn2, splitOnce, if_neg h]

theorem splitn2_append {c : Char} {s t : String} (h : c ∉ s.toList) :
    splitn2 c (s ++ String.singleton c ++ t) = (s, some t) := by
  have hall : ∀ x ∈ s.toList, (x != c) = true := by
    intro x hx
    rw [bne_iff_ne]
    rintro rfl
    exact h hx
  have hlist : (s ++ String.singleton c ++ t).toList = s.toList ++ c :: t.toList := by
    simp
  rw [splitn2, splitOnce, if_pos (by rw [hlist]; simp), hlist,
    List.takeWhile_append_of_pos hall, List.dropWhile_append_of_pos hall]
  simp

/-! ## Segments -/

namespace Segment

theorem ne_empty (s : Segment) : s.text ≠ "" := by
  intro h
  exact s.ne_nil (by rw [h]; rfl)

theorem exists_head (s : Segment) : ∃ d l, s.text.toList = d :: l ∧ d ≠ '/' := by
  obtain ⟨d, l, hl⟩ := List.exists_cons_of_ne_nil s.ne_nil
  refine ⟨d, l, hl, ?_⟩
  rintro rfl
  exact s.noSlash (hl ▸ List.mem_cons_self)

theorem exists_last (s : Segment) : ∃ l d, s.text.toList = l ++ [d] ∧ d ≠ '/' := by
  obtain ⟨l, d, hl⟩ := (List.eq_nil_or_concat s.text.toList).resolve_left s.ne_nil
  rw [List.concat_eq_append] at hl
  refine ⟨l, d, hl, ?_⟩
  rintro rfl
  exact s.noSlash (hl ▸ by simp)

end Segment

theorem rootOf_cons (s : Segment) (segs : List Segment) :
    rootOf (s :: segs) = "/" ++ joined (s :: segs) := String.append_assoc ..

/-- A path with a segment does not end with a slash. -/
theorem joined_exists_last (s : Segment) (segs : List Segment) :
    ∃ l d, (joined (s :: segs)).toList = l ++ [d] ∧ d ≠ '/' := by
  induction segs generalizing s with
  | nil =>
    obtain ⟨l, d, hl, hd⟩ := s.exists_last
    exact ⟨l, d, by rw [joined, rootOf, String.append_empty, hl], hd⟩
  | cons t segs ih =>
    obtain ⟨l, d, hl, hd⟩ := ih t
    refine ⟨s.text.toList ++ '/' :: l, d, ?_, hd⟩
    rw [joined, rootOf_cons, String.toList_append, String.toList_append, hl]
    simp

theorem rootOf_exists_last (s : Segment) (segs : List Segment) :
    ∃ l d, (rootOf (s :: segs)).toList = l ++ [d] ∧ d ≠ '/' := by
  obtain ⟨l, d, hl, hd⟩ := joined_exists_last s segs
  exact ⟨'/' :: l, d, by rw [rootOf_cons, String.toList_append, hl]; rfl, hd⟩

/-! ## The normal form -/

/-- However a path with segments is written, its normal form is the same. -/
theorem normalizedPath_configured (s : Segment) (segs : List Segment)
    (leading trailing : Bool) :
    normalizedPath (configured (s :: segs) leading trailing) = rootOf (s :: segs) ++ "/" := by
  have htrim : trimEndMatches '/' (configured (s :: segs) leading trailing) =
      (if leading then "/" else "") ++ joined (s :: segs) := by
    obtain ⟨l, d, hl, hd⟩ := joined_exists_last s segs
    refine trimEndMatches_append hd (l := (if leading then "/" else "").toList ++ l) ?_ ?_
    · rw [String.toList_append, hl, List.append_assoc]
    · cases trailing <;> simp
  unfold normalizedPath
  dsimp only
  rw [htrim, rootOf_cons]
  cases leading with
  | true => simp
  | false =>
    obtain ⟨d, l, hl, hd⟩ := s.exists_head
    have hhead : (joined (s :: segs)).toList.head? = some d := by
      rw [joined, String.toList_append, hl]
      rfl
    simp only [Bool.false_eq_true, if_false, String.empty_append, hhead, Option.some.injEq, hd]

theorem trimEndMatches_base (s : Segment) (segs : List Segment) :
    trimEndMatches '/' (rootOf (s :: segs) ++ "/") = rootOf (s :: segs) := by
  obtain ⟨l, d, hl, hd⟩ := rootOf_exists_last s segs
  exact trimEndMatches_append hd hl (by simp)

/-- A path without segments is normalized to two slashes. -/
theorem normalizedPath_configured_nil (leading trailing : Bool) :
    normalizedPath (configured [] leading trailing) = "//" := by
  cases leading <;> cases trailing <;> decide

/-! ## Requests -/

section Requests

variable {root : String} (hroot : trimEndMatches '/' (root ++ "/") = root)
include hroot

/-- A request below the base. -/
theorem parsePath_append {rest : String} (hrest : rest ≠ "")
    (htrim : trimStartMatches '/' rest = rest) :
    parsePath (root ++ "/" ++ rest) (root ++ "/") =
      some (nonEmpty (splitn2 '/' rest).1, (splitn2 '/' rest).2.bind nonEmpty) := by
  have hne : ¬ (root ++ "/" ++ rest = root ∨ root ++ "/" ++ rest = root ++ "/") := by
    rintro (h | h)
    · have hlist := congrArg String.toList h
      simp at hlist
    · have hlist := congrArg String.toList h
      rw [String.toList_append, List.append_right_eq_self] at hlist
      exact hrest (String.toList_injective hlist)
  unfold parsePath
  dsimp only
  rw [hroot, if_neg hne, stripPrefix_append, Option.map_some, htrim]
  dsimp only
  rw [if_neg hrest]

theorem parsePath_session (sid : Segment) :
    parsePath (root ++ "/" ++ sid.text) (root ++ "/") = some (some sid.text, none) := by
  obtain ⟨d, l, hl, hd⟩ := sid.exists_head
  rw [parsePath_append hroot sid.ne_empty (trimStartMatches_eq_self hd hl),
    splitn2_of_not_mem sid.noSlash]
  simp [nonEmpty, sid.ne_empty]

theorem parsePath_packet (sid seq : Segment) :
    parsePath (root ++ "/" ++ sid.text ++ "/" ++ seq.text) (root ++ "/") =
      some (some sid.text, some seq.text) := by
  obtain ⟨d, l, hl, hd⟩ := sid.exists_head
  have hrest : (sid.text ++ "/" ++ seq.text).toList = d :: (l ++ '/' :: seq.text.toList) := by
    simp [hl]
  have hne : sid.text ++ "/" ++ seq.text ≠ "" := by
    intro h
    rw [h] at hrest
    cases hrest
  have hassoc : root ++ "/" ++ sid.text ++ "/" ++ seq.text =
      root ++ "/" ++ (sid.text ++ "/" ++ seq.text) := by
    simp only [String.append_assoc]
  have hsplit : splitn2 '/' (sid.text ++ "/" ++ seq.text) = (sid.text, some seq.text) :=
    splitn2_append sid.noSlash
  rw [hassoc, parsePath_append hroot hne (trimStartMatches_eq_self hd hrest), hsplit]
  simp [nonEmpty, sid.ne_empty, seq.ne_empty]

/-- The base itself, and what is not below it. -/
theorem parsePath_base :
    parsePath root (root ++ "/") = some (none, none) ∧
      parsePath (root ++ "/") (root ++ "/") = some (none, none) := by
  unfold parsePath
  dsimp only
  rw [hroot]
  simp

theorem parsePath_other {req : String} (hreq : req ≠ root)
    (hbelow : ¬ (root ++ "/").toList <+: req.toList) : parsePath req (root ++ "/") = none := by
  have hne : ¬ (req = root ∨ req = root ++ "/") := by
    rintro (h | rfl)
    · exact hreq h
    · exact hbelow List.prefix_rfl
  unfold parsePath
  dsimp only
  rw [hroot, if_neg hne, stripPrefix, if_neg hbelow]
  rfl

end Requests

/-- **Path matching.**  For every path, however it is written, requests are matched against
its segments exactly if it has one. -/
theorem pathLaw_iff (segs : List Segment) (leading trailing : Bool) :
    PathLaw segs leading trailing ↔ segs ≠ [] := by
  constructor
  · rintro h rfl
    have hslash := h.slash
    rw [normalizedPath_configured_nil] at hslash
    exact absurd hslash (by decide)
  · intro hne
    obtain ⟨s, segs, rfl⟩ := List.exists_cons_of_ne_nil hne
    have hroot := trimEndMatches_base s segs
    have hbase := normalizedPath_configured s segs leading trailing
    refine ⟨?_, ?_, ?_, ?_, ?_⟩ <;> rw [hbase]
    · exact parsePath_session hroot
    · exact parsePath_packet hroot
    · exact (parsePath_base hroot).1
    · exact (parsePath_base hroot).2
    · exact fun req => parsePath_other hroot

/-- `default_xhttp_path`. -/
def defaultXhttpPath : String := "/"

example : configured [] true false = defaultXhttpPath := by decide

/-- The session of `/a` is not found under the default path. -/
theorem not_pathLaw_default :
    ¬ ∀ (segs : List Segment) (leading trailing : Bool), PathLaw segs leading trailing := by
  intro hall
  have hsession := (hall [] true false).session ⟨"a", by decide, by decide⟩
  exact absurd hsession (by decide)

end Ruproxy.Xhttp
