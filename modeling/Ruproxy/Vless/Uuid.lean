/-
  Vless/Uuid.lean --- `parse_uuid` of `vless/protocol.rs`.

  The function drops the hyphens, checks that 32 bytes are left and reads them two at a
  time.  The length is one in bytes and the pairs are slices, so a character of several
  bytes can stand across the end of a pair, and each pair is read as a number, which may
  have a sign.
-/
import Ruproxy.Foundation.HexText

set_option autoImplicit false

namespace Ruproxy.Vless

open Ruproxy.Foundation
open Ruproxy.Foundation.Outcome

/-! ## The function -/

/-- The ways in which a text is no UUID. -/
inductive UuidError where
  | string (s : String)
  | hex (i : Nat)
  deriving DecidableEq

/-- The text of an error. -/
def UuidError.text : UuidError → String
  | .string s => "vless: invalid UUID string: " ++ s
  | .hex i => "vless: invalid UUID hex at byte " ++ dec i

/-- `s.chars().filter(|c| *c != '-').collect()`. -/
def stripHyphens (s : String) : String := String.ofList (s.toList.filter (· ≠ '-'))

/-- The loop of `parse_uuid`, over the indices that are left. -/
def parseUuidLoop (hex : String) (bytes : Vector UInt8 16) :
    List Nat → Outcome UuidError (Vector UInt8 16)
  | [] => return bytes
  | i :: is => do
      let pair ← strSlice hex (i * 2) (i * 2 + 2)
      let b ← orErr (.hex i) (fromStrRadixU8 16 pair)
      parseUuidLoop hex (bytes.setIfInBounds i b) is

/-- `parse_uuid`. -/
def parseUuid (s : String) : Outcome UuidError (Vector UInt8 16) :=
  let hex := stripHyphens s
  if hex.utf8ByteSize ≠ 32 then err (.string s)
  else parseUuidLoop hex (.replicate 16 0) (List.range 16)

/-! ## The loop -/

/-- The first pairs are read, and then a character stands across the end of a pair. -/
inductive Straddled : List Char → Prop where
  | first {c : Char} {cs : List Char} (hc : 2 < c.utf8Size) : Straddled (c :: cs)
  | second {c d : Char} {cs : List Char} (hc : c.utf8Size = 1) (hd : 1 < d.utf8Size) :
      Straddled (c :: d :: cs)
  | next {c d : Char} {b : UInt8} {cs : List Char} (hcd : Reads [c, d] [b])
      (hcs : Straddled cs) : Straddled (c :: d :: cs)

section Loop

variable {hex : String} {pre cs : List Char} {c d : Char} {k : Nat}

/-- What stands at the front of a text that is not empty and has an even number of
bytes. -/
theorem front_cases {n : Nat} (h : byteLen cs = 2 * (n + 1)) :
    (∃ c cs', cs = c :: cs' ∧ 2 < c.utf8Size) ∨
    (∃ c cs', cs = c :: cs' ∧ c.utf8Size = 2) ∨
    (∃ c d cs', cs = c :: d :: cs' ∧ c.utf8Size = 1 ∧ 1 < d.utf8Size) ∨
    ∃ c d cs', cs = c :: d :: cs' ∧ c.utf8Size = 1 ∧ d.utf8Size = 1 ∧ byteLen cs' = 2 * n := by
  cases cs with
  | nil => exact absurd h (by rw [byteLen_nil]; omega)
  | cons c cs =>
    have hc := c.utf8Size_pos
    rw [byteLen_cons] at h
    rcases Nat.lt_or_ge 2 c.utf8Size with hwide | hwide
    · exact .inl ⟨c, cs, rfl, hwide⟩
    rcases Nat.lt_or_ge 1 c.utf8Size with htwo | hone
    · exact .inr (.inl ⟨c, cs, rfl, by omega⟩)
    cases cs with
    | nil => exact absurd h (by rw [byteLen_nil]; omega)
    | cons d cs =>
      have hd := d.utf8Size_pos
      rw [byteLen_cons] at h
      rcases Nat.lt_or_ge 1 d.utf8Size with hd' | hd'
      · exact .inr (.inr (.inl ⟨c, d, cs, rfl, by omega, hd'⟩))
      · exact .inr (.inr (.inr ⟨c, d, cs, rfl, by omega, by omega, by omega⟩))

/-- Behind a pair that is read it is the rest that counts. -/
theorem straddled_cons_iff {b : UInt8} (h : Reads [c, d] [b]) :
    Straddled (c :: d :: cs) ↔ Straddled cs := by
  have hc := h.utf8Size c List.mem_cons_self
  have hd := h.utf8Size d (by simp)
  constructor
  · intro hcs
    cases hcs with
    | first hc' => omega
    | second _ hd' => omega
    | next _ hcs => exact hcs
  · exact .next h

/-- A pair of characters of one byte that is not read stands across nothing. -/
theorem not_straddled_of_pair (hc : c.utf8Size = 1) (hd : d.utf8Size = 1)
    (hpair : fromStrRadixU8 16 (String.ofList [c, d]) = none) :
    ¬ Straddled (c :: d :: cs) := by
  intro h
  cases h with
  | first hc' => omega
  | second _ hd' => omega
  | next hcd _ =>
    obtain ⟨b, -, hb, -⟩ := reads_cons_iff.mp hcd
    rw [hpair] at hb
    cases hb

theorem not_straddled_of_wide (hc : c.utf8Size = 2) : ¬ Straddled (c :: cs) := by
  intro h
  cases h with
  | first hc' => omega
  | second hc' _ => omega
  | next hcd _ =>
    have hone := hcd.utf8Size c List.mem_cons_self
    omega

/-- A turn on a pair of characters of one byte. -/
theorem parseUuidLoop_pair (hhex : hex.toList = pre ++ (c :: d :: cs)) (hpre : byteLen pre = k * 2)
    (hc : c.utf8Size = 1) (hd : d.utf8Size = 1) (bytes : Vector UInt8 16) (is : List Nat) :
    parseUuidLoop hex bytes (k :: is) =
      orErr (.hex k) (fromStrRadixU8 16 (String.ofList [c, d])) >>= fun b =>
        parseUuidLoop hex (bytes.setIfInBounds k b) is := by
  have hslice : (strSlice hex (k * 2) (k * 2 + 2) : Outcome UuidError String) =
      ok (String.ofList [c, d]) :=
    strSlice_eq_ok [c, d] hhex hpre (by simp [hc, hd])
  rw [parseUuidLoop, hslice, ok_bind]

/-- A turn on a character of two bytes. -/
theorem parseUuidLoop_wide (hhex : hex.toList = pre ++ (c :: cs)) (hpre : byteLen pre = k * 2)
    (hc : c.utf8Size = 2) (bytes : Vector UInt8 16) (is : List Nat) :
    parseUuidLoop hex bytes (k :: is) = err (.hex k) := by
  have hslice : (strSlice hex (k * 2) (k * 2 + 2) : Outcome UuidError String) =
      ok (String.ofList [c]) :=
    strSlice_eq_ok [c] hhex hpre (by simp [hc])
  rw [parseUuidLoop, hslice, ok_bind, fromStrRadixU8_wide (by omega)]
  rfl

/-- A turn on a character that stands across the end of the pair, behind the part `mid` of
the pair. -/
theorem parseUuidLoop_across (mid : List Char) (hhex : hex.toList = pre ++ (mid ++ c :: cs))
    (hpre : byteLen pre = k * 2) (hlo : byteLen mid < 2) (hhi : 2 < byteLen mid + c.utf8Size)
    (bytes : Vector UInt8 16) (is : List Nat) :
    parseUuidLoop hex bytes (k :: is) = panic := by
  have hslice : (strSlice hex (k * 2) (k * 2 + 2) : Outcome UuidError String) = panic :=
    strSlice_eq_panic hhex hpre (by omega) (by omega)
  rw [parseUuidLoop, hslice, panic_bind]

/-- **A turn.**  It panics where a character stands across the end of the pair, it fails on
other characters that are not read, and it goes on behind a pair that is. -/
theorem turn_cases {n : Nat} (hhex : hex.toList = pre ++ cs) (hpre : byteLen pre = k * 2)
    (hcs : byteLen cs = 2 * (n + 1)) (bytes : Vector UInt8 16) (is : List Nat) :
    (parseUuidLoop hex bytes (k :: is) = panic ∧ Straddled cs ∧ ∀ bs, ¬ Reads cs bs) ∨
    (parseUuidLoop hex bytes (k :: is) = err (.hex k) ∧ ¬ Straddled cs ∧ ∀ bs, ¬ Reads cs bs) ∨
    ∃ c d cs' b, cs = c :: d :: cs' ∧ fromStrRadixU8 16 (String.ofList [c, d]) = some b ∧
      hex.toList = (pre ++ [c, d]) ++ cs' ∧ byteLen (pre ++ [c, d]) = (k + 1) * 2 ∧
      byteLen cs' = 2 * n ∧
      parseUuidLoop hex bytes (k :: is) = parseUuidLoop hex (bytes.setIfInBounds k b) is := by
  rcases front_cases hcs with ⟨c, cs, rfl, hc⟩ | ⟨c, cs, rfl, hc⟩ | ⟨c, d, cs, rfl, hc, hd⟩ |
    ⟨c, d, cs, rfl, hc, hd, hrest⟩
  · refine .inl ⟨?_, .first hc, fun bs hbs => ?_⟩
    · exact parseUuidLoop_across [] hhex hpre (by simp) (by simpa using hc) bytes is
    · have hone := hbs.utf8Size c List.mem_cons_self
      omega
  · refine .inr (.inl ⟨parseUuidLoop_wide hhex hpre hc bytes is, not_straddled_of_wide hc,
      fun bs hbs => ?_⟩)
    have hone := hbs.utf8Size c List.mem_cons_self
    omega
  · refine .inl ⟨?_, .second hc hd, fun bs hbs => ?_⟩
    · exact parseUuidLoop_across [c] hhex hpre (by simp [hc])
        (by rw [byteLen_cons, byteLen_nil]; omega) bytes is
    · have hone := hbs.utf8Size d (by simp)
      omega
  · have hturn := parseUuidLoop_pair hhex hpre hc hd bytes is
    rcases hpair : fromStrRadixU8 16 (String.ofList [c, d]) with _ | b
    · rw [hpair, orErr_none, err_bind] at hturn
      refine .inr (.inl ⟨hturn, not_straddled_of_pair hc hd hpair, fun bs hbs => ?_⟩)
      obtain ⟨b, -, hb, -⟩ := reads_cons_iff.mp hbs
      rw [hpair] at hb
      cases hb
    · rw [hpair, orErr_some, ok_bind] at hturn
      refine .inr (.inr ⟨c, d, cs, b, rfl, hpair, ?_, ?_, hrest, hturn⟩)
      · rw [hhex, List.append_assoc]
        rfl
      · rw [byteLen_append, hpre, byteLen_cons, byteLen_cons, byteLen_nil, hc, hd]
        omega

theorem eq_nil_of_byteLen (h : byteLen cs = 2 * 0) : cs = [] := by
  cases cs with
  | nil => rfl
  | cons c cs =>
    have hpos := c.utf8Size_pos
    rw [byteLen_cons] at h
    omega

/-- The loop panics when a character stands across the end of a pair. -/
theorem parseUuidLoop_eq_panic_iff {n : Nat} (hhex : hex.toList = pre ++ cs)
    (hpre : byteLen pre = k * 2) (hcs : byteLen cs = 2 * n) (bytes : Vector UInt8 16) :
    parseUuidLoop hex bytes (List.range' k n) = panic ↔ Straddled cs := by
  induction n generalizing k pre cs bytes with
  | zero =>
    obtain rfl := eq_nil_of_byteLen hcs
    exact iff_of_false (by simp [parseUuidLoop]) (by rintro ⟨⟩)
  | succ n ih =>
    rw [List.range'_succ]
    rcases turn_cases hhex hpre hcs bytes (List.range' (k + 1) n) with ⟨hturn, h, -⟩ |
      ⟨hturn, h, -⟩ | ⟨c, d, cs', b, rfl, hpair, hhex', hpre', hcs', hturn⟩
    · exact iff_of_true hturn h
    · refine iff_of_false (fun hpanic => ?_) h
      rw [hturn] at hpanic
      cases hpanic
    · rw [hturn, ih hhex' hpre' hcs', straddled_cons_iff]
      exact reads_cons_iff.mpr ⟨b, [], hpair, .nil, rfl⟩

/-- The loop returns what the pairs read, behind the bytes that it had. -/
theorem parseUuidLoop_eq_ok_iff {n : Nat} (hhex : hex.toList = pre ++ cs)
    (hpre : byteLen pre = k * 2) (hcs : byteLen cs = 2 * n) (hk : k + n = 16)
    (bytes b : Vector UInt8 16) :
    parseUuidLoop hex bytes (List.range' k n) = ok b ↔
      ∃ bs, Reads cs bs ∧ b.toList = bytes.toList.take k ++ bs := by
  induction n generalizing k pre cs bytes with
  | zero =>
    obtain rfl := eq_nil_of_byteLen hcs
    have hall : bytes.toList.take k = bytes.toList :=
      List.take_of_length_le (by rw [bytes.length_toList]; omega)
    rw [List.range'_zero, parseUuidLoop, pure_eq_ok, ok.injEq, hall]
    constructor
    · rintro rfl
      exact ⟨[], .nil, (List.append_nil _).symm⟩
    · rintro ⟨bs, hbs, heq⟩
      cases hbs
      rw [List.append_nil] at heq
      exact (Vector.toList_inj.mp heq).symm
  | succ n ih =>
    rw [List.range'_succ]
    rcases turn_cases hhex hpre hcs bytes (List.range' (k + 1) n) with ⟨hturn, -, h⟩ |
      ⟨hturn, -, h⟩ | ⟨c, d, cs', x, rfl, hpair, hhex', hpre', hcs', hturn⟩
    · rw [hturn]
      exact iff_of_false (fun hok => by cases hok) fun ⟨bs, hbs, _⟩ => h bs hbs
    · rw [hturn]
      exact iff_of_false (fun hok => by cases hok) fun ⟨bs, hbs, _⟩ => h bs hbs
    · have htake : (bytes.setIfInBounds k x).toList.take (k + 1) = bytes.toList.take k ++ [x] := by
        have hlt : k < bytes.toList.length := by
          rw [bytes.length_toList]
          omega
        rw [Vector.toList_setIfInBounds, List.take_add_one, List.take_set_of_le (Nat.le_refl k),
          List.getElem?_set_self hlt]
        rfl
      rw [hturn, ih hhex' hpre' hcs' (by omega), htake]
      constructor
      · rintro ⟨bs, hbs, heq⟩
        refine ⟨x :: bs, reads_cons_iff.mpr ⟨x, bs, hpair, hbs, rfl⟩, ?_⟩
        rw [heq, List.append_assoc]
        rfl
      · rintro ⟨_, hread, heq⟩
        obtain ⟨y, bs, hy, hbs, rfl⟩ := reads_cons_iff.mp hread
        rw [hpair] at hy
        cases hy
        exact ⟨bs, hbs, by rw [heq, List.append_assoc]; rfl⟩

end Loop

/-! ## The whole text -/

/-- The characters of the text without its hyphens. -/
def hexChars (s : String) : List Char := s.toList.filter (· ≠ '-')

theorem stripHyphens_toList (s : String) : (stripHyphens s).toList = hexChars s :=
  String.toList_ofList

theorem stripHyphens_utf8ByteSize (s : String) :
    (stripHyphens s).utf8ByteSize = byteLen (hexChars s) := by
  rw [utf8ByteSize_eq, stripHyphens_toList]

theorem parseUuid_eq_panic_iff (s : String) :
    parseUuid s = panic ↔ byteLen (hexChars s) = 32 ∧ Straddled (hexChars s) := by
  rw [parseUuid, stripHyphens_utf8ByteSize, List.range_eq_range']
  split
  · rename_i hlen
    exact iff_of_false (fun h => by cases h) fun h => hlen h.1
  · rename_i hlen
    rw [not_not] at hlen
    have hloop := @parseUuidLoop_eq_panic_iff (stripHyphens s) [] (hexChars s) 0 16
      (stripHyphens_toList s) rfl hlen (.replicate 16 0)
    exact hloop.trans (and_iff_right hlen).symm

/-- The function returns the bytes that the pairs read. -/
theorem parseUuid_eq_ok_iff (s : String) (b : Vector UInt8 16) :
    parseUuid s = ok b ↔ Reads (hexChars s) b.toList := by
  rw [parseUuid, stripHyphens_utf8ByteSize, List.range_eq_range']
  split
  · rename_i hlen
    refine iff_of_false (fun h => by cases h) fun h => hlen ?_
    rw [h.byteLen_eq, b.length_toList]
  · rename_i hlen
    rw [not_not] at hlen
    refine (@parseUuidLoop_eq_ok_iff (stripHyphens s) [] (hexChars s) 0 16
      (stripHyphens_toList s) rfl hlen rfl (.replicate 16 0) b).trans ?_
    constructor
    · rintro ⟨bs, hbs, heq⟩
      rw [heq]
      exact hbs
    · intro h
      exact ⟨b.toList, h, rfl⟩

/-- The text is misread: it has the length of a UUID, and a character stands across the end
of a pair behind pairs that are read, or all its pairs are read and one has a sign. -/
def Misread (s : String) : Prop :=
  byteLen (hexChars s) = 32 ∧
    (Straddled (hexChars s) ∨ '+' ∈ hexChars s ∧ ∃ bs, Reads (hexChars s) bs)

/-- **UUIDs.**  Every text whose characters other than hyphens are 32 hexadecimal digits is
parsed to the bytes they spell, among them the `{:02x}` formats of 16 bytes.  A text is
parsed without a panic, and to bytes exactly when such digits spell them, if and only if it
is not misread. -/
theorem parseUuid_exact_iff (s : String) :
    (∀ b : Vector UInt8 16, Spells (hexChars s) b.toList → parseUuid s = ok b) ∧
      (∀ b : Vector UInt8 16, hexChars s = (b.toList.flatMap fun x => (hex02 x.toNat).toList) →
        parseUuid s = ok b) ∧
      ((parseUuid s ≠ panic ∧
        ∀ b : Vector UInt8 16, parseUuid s = ok b ↔ Spells (hexChars s) b.toList) ↔
          ¬ Misread s) := by
  have hspells : ∀ b : Vector UInt8 16, Spells (hexChars s) b.toList → parseUuid s = ok b :=
    fun b h => (parseUuid_eq_ok_iff s b).mpr h.reads
  refine ⟨hspells, fun b h => hspells b (h ▸ spells_hex02 b.toList), ?_⟩
  rw [Ne, parseUuid_eq_panic_iff]
  constructor
  · rintro ⟨hpanic, hok⟩ ⟨hlen, hstraddled | ⟨hplus, bs, hbs⟩⟩
    · exact hpanic ⟨hlen, hstraddled⟩
    · have hcount : bs.length = 16 := by
        rw [hbs.byteLen_eq] at hlen
        omega
      obtain ⟨b, rfl⟩ := exists_toList_eq hcount
      exact ((hok b).mp ((parseUuid_eq_ok_iff s b).mpr hbs)).not_mem_plus hplus
  · intro hread
    refine ⟨fun h => hread ⟨h.1, .inl h.2⟩, fun b => ⟨fun h => ?_, hspells b⟩⟩
    have hbs := (parseUuid_eq_ok_iff s b).mp h
    refine hbs.spells fun hplus => hread ⟨?_, .inr ⟨hplus, _, hbs⟩⟩
    rw [hbs.byteLen_eq, b.length_toList]

/-- The digits from `0` to `f`, each twice, with the hyphens of a UUID. -/
theorem parseUuid_exact_iff_digits :
    parseUuid "00112233-4455-6677-8899-aabbccddeeff" =
      ok #v[0x00, 0x11, 0x22, 0x33, 0x44, 0x55, 0x66, 0x77, 0x88, 0x99, 0xaa, 0xbb, 0xcc, 0xdd,
        0xee, 0xff] := by
  have hdigits : hexChars "00112233-4455-6677-8899-aabbccddeeff" =
      ([0x00, 0x11, 0x22, 0x33, 0x44, 0x55, 0x66, 0x77, 0x88, 0x99, 0xaa, 0xbb, 0xcc, 0xdd, 0xee,
        0xff] : Bytes).flatMap fun x => (hex02 x.toNat).toList := by decide +kernel
  exact (parseUuid_exact_iff _).2.1 _ hdigits

/-- A digit, a character of two bytes and 29 more digits. -/
def straddledUuid : String := String.ofList ('0' :: 'é' :: List.replicate 29 '0')

/-- The character stands across the end of the first pair, where the function panics. -/
theorem not_parseUuid_exact :
    ¬ ∀ s : String, parseUuid s ≠ panic ∧
      ∀ b : Vector UInt8 16, parseUuid s = ok b ↔ Spells (hexChars s) b.toList := by
  intro hall
  have hchars : hexChars straddledUuid = '0' :: 'é' :: List.replicate 29 '0' := by
    have hlist : straddledUuid.toList = '0' :: 'é' :: List.replicate 29 '0' :=
      String.toList_ofList
    show straddledUuid.toList.filter (· ≠ '-') = _
    rw [hlist]
    decide +kernel
  refine (hall straddledUuid).1 ((parseUuid_eq_panic_iff straddledUuid).mpr ?_)
  rw [hchars]
  exact ⟨by decide +kernel, .second (by decide) (by decide)⟩

end Ruproxy.Vless
