/-
  Socks/Handshake.lean --- the SOCKS5 handshake of `socks/mod.rs`.

  `handle` talks to the client: it reads the greeting and, if users are configured, the
  credentials, answers, reads the request and connects to its target.  A part of it is the
  bytes that it writes and a result; the connection is the list of the bytes that the
  client sends, and writing does not fail.

  The credentials are compared as text that `from_utf8_lossy` makes of them.
-/
import Ruproxy.Address.Agreement
import Ruproxy.Address.Grammar
import Ruproxy.Foundation.Lossy

set_option autoImplicit false

namespace Ruproxy.Socks

open Ruproxy.Foundation Ruproxy.Address

/-- `METHOD_NO_AUTH`. -/
def methodNoAuth : UInt8 := 0x00
/-- `METHOD_PASSWORD`. -/
def methodPassword : UInt8 := 0x02
/-- `METHOD_NO_ACCEPTABLE`. -/
def methodNoAcceptable : UInt8 := 0xFF
/-- `CMD_CONNECT`. -/
def cmdConnect : UInt8 := 0x01
/-- `REP_SUCCESS`. -/
def repSuccess : UInt8 := 0x00
/-- `REP_GENERAL_FAILURE`. -/
def repGeneralFailure : UInt8 := 0x01
/-- `REP_CMD_NOT_SUPPORTED`. -/
def repCmdNotSupported : UInt8 := 0x07

/-- `SocksUser`. -/
structure SocksUser where
  username : String
  password : String
  deriving DecidableEq

/-! ## Talking to the client -/

/-- A part of `handle`: what it writes to the client, and its result. -/
structure Talk (α : Type) where
  written : Bytes
  result : Except AddrError α
  deriving DecidableEq

namespace Talk

variable {α β : Type}

/-- A result without a word to the client. -/
def silent (x : Except AddrError α) : Talk α := ⟨[], x⟩

/-- `write_all`. -/
def write (b : Bytes) : Talk Unit := ⟨b, .ok ()⟩

/-- One part after another; an error ends the talk. -/
def andThen (x : Talk α) (f : α → Talk β) : Talk β :=
  match x.result with
  | .ok a => ⟨x.written ++ (f a).written, (f a).result⟩
  | .error e => ⟨x.written, .error e⟩

instance : Monad Talk where
  pure a := silent (.ok a)
  bind := andThen

theorem silent_eq_ok {x : Except AddrError α} {w : Bytes} {a : α} :
    silent x = ⟨w, .ok a⟩ ↔ w = [] ∧ x = .ok a := by
  rw [silent, Talk.mk.injEq, eq_comm (a := w)]

/-- A sequence writes what its parts write, and returns what the second makes of the value
of the first. -/
theorem bind_eq_ok {x : Talk α} {f : α → Talk β} {w : Bytes} {b : β} :
    x >>= f = ⟨w, .ok b⟩ ↔
      ∃ w₁ a w₂, x = ⟨w₁, .ok a⟩ ∧ f a = ⟨w₂, .ok b⟩ ∧ w = w₁ ++ w₂ := by
  obtain ⟨w₁, r⟩ := x
  cases r with
  | error e =>
    refine iff_of_false (fun h => ?_) ?_
    · cases congrArg Talk.result h
    · rintro ⟨_, _, _, hx, -⟩
      cases congrArg Talk.result hx
  | ok a =>
    constructor
    · intro h
      have hresult : (f a).result = .ok b := congrArg Talk.result h
      refine ⟨w₁, a, (f a).written, rfl, ?_, (congrArg Talk.written h).symm⟩
      rw [← hresult]
    · rintro ⟨w₁', a', w₂, hx, hf, rfl⟩
      obtain ⟨rfl, ha⟩ := Talk.mk.inj hx
      cases ha
      show (⟨w₁ ++ (f a).written, (f a).result⟩ : Talk β) = _
      rw [hf]

/-- A read in front of a part. -/
theorem silent_bind_eq_ok {x : Except AddrError α} {f : α → Talk β} {w : Bytes} {b : β} :
    silent x >>= f = ⟨w, .ok b⟩ ↔ ∃ a, x = .ok a ∧ f a = ⟨w, .ok b⟩ := by
  rw [bind_eq_ok]
  constructor
  · rintro ⟨w₁, a, w₂, hx, hf, rfl⟩
    obtain ⟨rfl, ha⟩ := silent_eq_ok.mp hx
    exact ⟨a, ha, hf⟩
  · rintro ⟨a, ha, hf⟩
    exact ⟨[], a, w, silent_eq_ok.mpr ⟨rfl, ha⟩, hf, rfl⟩

/-- A write in front of a part. -/
theorem write_bind_eq_ok {b w : Bytes} {f : Unit → Talk β} {c : β} :
    write b >>= f = ⟨w, .ok c⟩ ↔ ∃ w', f () = ⟨w', .ok c⟩ ∧ w = b ++ w' := by
  rw [bind_eq_ok]
  constructor
  · rintro ⟨w₁, ⟨⟩, w₂, hx, hf, rfl⟩
    obtain ⟨rfl, -⟩ := Talk.mk.inj hx
    exact ⟨w₂, hf, rfl⟩
  · rintro ⟨w', hf, rfl⟩
    exact ⟨b, (), w', rfl, hf, rfl⟩

/-- `bail!`. -/
def bail (msg : String) : Talk α := silent (.error (.bail msg))

theorem bail_ne_ok {msg : String} {w : Bytes} {a : α} : bail msg ≠ ⟨w, .ok a⟩ := fun h => by
  cases congrArg Talk.result h

end Talk

open Talk

/-! ## The handler -/

/-- The `{:02x}` format of a byte behind `0x`. -/
def hexByte (b : UInt8) : String := "0x" ++ hex02 b.toNat

/-- `cfg.users.iter().any(..)` on the texts of the sub-negotiation. -/
def matchesUser (users : List SocksUser) (uname passwd : String) : Bool :=
  users.any fun u => u.username == uname && u.password == passwd

/-- The sub-negotiation behind the choice of `METHOD_PASSWORD`. -/
def subnegotiate (users : List SocksUser) (stream : Bytes) : Talk Bytes := do
  let (subVer, stream) ← silent (readU8 stream)
  if subVer ≠ 0x01 then bail ("bad subneg version: " ++ hexByte subVer)
  else do
    let (ulen, stream) ← silent (readU8 stream)
    let (uname, stream) ← silent (readN ulen.toNat stream)
    let (plen, stream) ← silent (readU8 stream)
    let (passwd, stream) ← silent (readN plen.toNat stream)
    let unameStr := fromUtf8Lossy uname
    let passwdStr := fromUtf8Lossy passwd
    if matchesUser users unameStr passwdStr then do
      write [0x01, 0x00]
      return stream
    else do
      write [0x01, 0x01]
      bail ("authentication failed for user '" ++ unameStr ++ "'")

/-- The greeting of `handle`, up to the request. -/
def greet (users : List SocksUser) (stream : Bytes) : Talk Bytes := do
  let (v, stream) ← silent (readU8 stream)
  if v ≠ ver then bail ("bad SOCKS version: " ++ hexByte v)
  else do
    let (nmethods, stream) ← silent (readU8 stream)
    let (methods, stream) ← silent (readN nmethods.toNat stream)
    let usePassword := !users.isEmpty
    if usePassword && methods.contains methodPassword then do
      write [ver, methodPassword]
      subnegotiate users stream
    else if !usePassword && methods.contains methodNoAuth then do
      write [ver, methodNoAuth]
      return stream
    else do
      write [ver, methodNoAcceptable]
      bail "no acceptable auth method"

/-- The request of `handle`, up to the connection to its target. -/
def readRequest (stream : Bytes) : Talk (String × Bytes) := do
  let (ver2, stream) ← silent (readU8 stream)
  if ver2 ≠ ver then bail ("bad SOCKS version in request: " ++ hexByte ver2)
  else do
    let (cmd, stream) ← silent (readU8 stream)
    let (_, stream) ← silent (readU8 stream)
    let (target, stream) ← (⟨(handleTarget stream).1, (handleTarget stream).2⟩ : Talk _)
    if cmd ≠ cmdConnect then do
      write (sendReply repCmdNotSupported)
      bail ("unsupported command: " ++ hexByte cmd)
    else return (target, stream)

/-- `handle` up to `TcpStream::connect`: the target, and what is left of the stream. -/
def handshake (users : List SocksUser) (stream : Bytes) : Talk (String × Bytes) := do
  let stream ← greet users stream
  readRequest stream

/-- `handle` up to the relay; `connect` gives the error text of a connection that fails. -/
def handle (connect : String → Option String) (users : List SocksUser) (stream : Bytes) :
    Talk (String × Bytes) := do
  let (target, stream) ← handshake users stream
  match connect target with
  | none => do
      write (sendReply repSuccess)
      return (target, stream)
  | some e => do
      write (sendReply repGeneralFailure)
      bail ("connect to " ++ target ++ " failed: " ++ e)

/-! ## The format -/

/-- A greeting with the methods that the client offers, and `rest` behind it. -/
def IsGreeting (methods s rest : Bytes) : Prop :=
  methods.length ≤ 255 ∧ s = 5 :: UInt8.ofNat methods.length :: (methods ++ rest)

/-- A sub-negotiation with credentials that pass, and `rest` behind it. -/
def IsSubnegotiation (passes : Bytes → Bytes → Prop) (s rest : Bytes) : Prop :=
  ∃ uname passwd, uname.length ≤ 255 ∧ passwd.length ≤ 255 ∧ passes uname passwd ∧
    s = 1 :: UInt8.ofNat uname.length :: (uname ++
      UInt8.ofNat passwd.length :: (passwd ++ rest))

/-- A CONNECT request for `target`, and `rest` behind it. -/
def IsRequest (s : Bytes) (target : String) (rest : Bytes) : Prop :=
  ∃ (rsv : UInt8) (addr : SocksAddr) (port : UInt16),
    s = 5 :: 1 :: rsv :: (addr.bytes ++ (u16ToBe port ++ rest)) ∧
      hostPort addr.host port = target

/-- The credentials are the bytes of the name and the password of a user. -/
def SameBytes (user : SocksUser) (uname passwd : Bytes) : Prop :=
  asBytes user.username = uname ∧ asBytes user.password = passwd

/-- The credentials decode to the name and the password of a user. -/
def SameText (user : SocksUser) (uname passwd : Bytes) : Prop :=
  user.username = fromUtf8Lossy uname ∧ user.password = fromUtf8Lossy passwd

/-- A client stream that is connected to `target`, with the answers to it.  Credentials that
`are` those of a user pass. -/
def IsHandshake (are : SocksUser → Bytes → Bytes → Prop) (users : List SocksUser)
    (s written : Bytes) (target : String) (rest : Bytes) : Prop :=
  ∃ methods behind, IsGreeting methods s behind ∧
    (users = [] ∧ 0 ∈ methods ∧ IsRequest behind target rest ∧ written = [5, 0] ∨
      users ≠ [] ∧ 2 ∈ methods ∧ written = [5, 2, 1, 0] ∧ ∃ request,
        IsSubnegotiation (fun uname passwd => ∃ user ∈ users, are user uname passwd)
          behind request ∧ IsRequest request target rest)

/-! ## Soundness and completeness -/

theorem handleTarget_eq_ok {s w rest : Bytes} {target : String} :
    (⟨(handleTarget s).1, (handleTarget s).2⟩ : Talk (String × Bytes)) =
        ⟨w, .ok (target, rest)⟩ ↔
      w = [] ∧ ∃ (addr : SocksAddr) (port : UInt16),
        s = addr.bytes ++ (u16ToBe port ++ rest) ∧ hostPort addr.host port = target := by
  have htarget : (handleTarget s).2 = .ok (target, rest) ↔
      ∃ (addr : SocksAddr) (port : UInt16),
        s = addr.bytes ++ (u16ToBe port ++ rest) ∧ hostPort addr.host port = target := by
    rw [← Except.toOption_eq_some, toOption_handleTarget, target_eq_some_iff]
    simp only [eq_comm]
  rw [Talk.mk.injEq, htarget]
  apply and_congr_left
  intro hok
  -- what is written is the answer to an address type that nobody knows
  have hsilent : (handleTarget s).1 = [] := by
    rcases handleTarget_written s with h | ⟨-, hnone⟩
    · exact h
    · rw [← toOption_handleTarget, htarget.mpr hok] at hnone
      cases hnone
  rw [hsilent, eq_comm]

/-- **Requests.**  A CONNECT request is accepted in silence, and no other request. -/
theorem readRequest_eq_ok {s w rest : Bytes} {target : String} :
    readRequest s = ⟨w, .ok (target, rest)⟩ ↔ w = [] ∧ IsRequest s target rest := by
  constructor
  · intro h
    obtain ⟨⟨ver2, s1⟩, hver, hverOk⟩ := silent_bind_eq_ok.mp h
    obtain rfl := readU8_eq_ok.mp hver
    dsimp only at hverOk
    split at hverOk
    · exact absurd hverOk bail_ne_ok
    rename_i hver2
    obtain ⟨⟨cmd, s2⟩, hcmd, hcmdOk⟩ := silent_bind_eq_ok.mp hverOk
    obtain rfl := readU8_eq_ok.mp hcmd
    obtain ⟨⟨rsv, s3⟩, hrsv, hrsvOk⟩ := silent_bind_eq_ok.mp hcmdOk
    obtain rfl := readU8_eq_ok.mp hrsv
    obtain ⟨w₁, ⟨target', s4⟩, w₂, htarget, hend, rfl⟩ := bind_eq_ok.mp hrsvOk
    obtain ⟨rfl, addr, port, rfl, rfl⟩ := handleTarget_eq_ok.mp htarget
    dsimp only at hend
    split at hend
    · obtain ⟨w', hbail, -⟩ := write_bind_eq_ok.mp hend
      exact absurd hbail bail_ne_ok
    rename_i hconnect
    obtain ⟨rfl, heq⟩ := silent_eq_ok.mp hend
    cases heq
    rw [not_not] at hver2 hconnect
    exact ⟨rfl, rsv, addr, port, by rw [hver2, hconnect]; rfl, rfl⟩
  · rintro ⟨rfl, rsv, addr, port, rfl, rfl⟩
    refine silent_bind_eq_ok.mpr ⟨_, readU8_eq_ok.mpr rfl, ?_⟩
    refine silent_bind_eq_ok.mpr ⟨_, readU8_eq_ok.mpr rfl, ?_⟩
    refine silent_bind_eq_ok.mpr ⟨_, readU8_eq_ok.mpr rfl, ?_⟩
    exact bind_eq_ok.mpr ⟨[], _, [], handleTarget_eq_ok.mpr ⟨rfl, addr, port, rfl, rfl⟩, rfl, rfl⟩

theorem matchesUser_iff {users : List SocksUser} {uname passwd : Bytes} :
    matchesUser users (fromUtf8Lossy uname) (fromUtf8Lossy passwd) = true ↔
      ∃ user ∈ users, SameText user uname passwd := by
  simp [matchesUser, SameText]

/-- **Credentials.**  The sub-negotiation succeeds, with the success status as the answer,
exactly on credentials that decode to those of a user. -/
theorem subnegotiate_eq_ok {users : List SocksUser} {s w rest : Bytes} :
    subnegotiate users s = ⟨w, .ok rest⟩ ↔ w = [1, 0] ∧
      IsSubnegotiation (fun uname passwd => ∃ user ∈ users, SameText user uname passwd) s
        rest := by
  constructor
  · intro h
    obtain ⟨⟨subVer, s1⟩, hver, hverOk⟩ := silent_bind_eq_ok.mp h
    obtain rfl := readU8_eq_ok.mp hver
    dsimp only at hverOk
    split at hverOk
    · exact absurd hverOk bail_ne_ok
    rename_i hone
    obtain ⟨⟨ulen, s2⟩, hulen, hulenOk⟩ := silent_bind_eq_ok.mp hverOk
    obtain rfl := readU8_eq_ok.mp hulen
    obtain ⟨⟨uname, s3⟩, huname, hunameOk⟩ := silent_bind_eq_ok.mp hulenOk
    obtain ⟨rfl, hushort, rfl⟩ := readN_toNat_eq_ok.mp huname
    obtain ⟨⟨plen, s4⟩, hplen, hplenOk⟩ := silent_bind_eq_ok.mp hunameOk
    obtain rfl := readU8_eq_ok.mp hplen
    obtain ⟨⟨passwd, s5⟩, hpasswd, hpasswdOk⟩ := silent_bind_eq_ok.mp hplenOk
    obtain ⟨rfl, hpshort, rfl⟩ := readN_toNat_eq_ok.mp hpasswd
    dsimp only at hpasswdOk
    split at hpasswdOk
    · rename_i hmatch
      obtain ⟨w', hend, rfl⟩ := write_bind_eq_ok.mp hpasswdOk
      obtain ⟨rfl, heq⟩ := silent_eq_ok.mp hend
      cases heq
      rw [not_not] at hone
      exact ⟨rfl, uname, passwd, hushort, hpshort, matchesUser_iff.mp hmatch, by rw [hone]⟩
    · obtain ⟨w', hbail, -⟩ := write_bind_eq_ok.mp hpasswdOk
      exact absurd hbail bail_ne_ok
  · rintro ⟨rfl, uname, passwd, hushort, hpshort, hmatch, rfl⟩
    refine silent_bind_eq_ok.mpr ⟨_, readU8_eq_ok.mpr rfl, ?_⟩
    refine silent_bind_eq_ok.mpr ⟨_, readU8_eq_ok.mpr rfl, ?_⟩
    refine silent_bind_eq_ok.mpr ⟨_, readN_toNat_eq_ok.mpr ⟨rfl, hushort, rfl⟩, ?_⟩
    refine silent_bind_eq_ok.mpr ⟨_, readU8_eq_ok.mpr rfl, ?_⟩
    refine silent_bind_eq_ok.mpr ⟨_, readN_toNat_eq_ok.mpr ⟨rfl, hpshort, rfl⟩, ?_⟩
    dsimp only
    rw [if_pos (matchesUser_iff.mpr hmatch)]
    rfl

/-- **Greetings.**  With users the client has to offer a password and to give one that
passes; without users it has to offer to go without. -/
theorem greet_eq_ok {users : List SocksUser} {s w rest : Bytes} :
    greet users s = ⟨w, .ok rest⟩ ↔ ∃ methods behind, IsGreeting methods s behind ∧
      (users = [] ∧ 0 ∈ methods ∧ behind = rest ∧ w = [5, 0] ∨
        users ≠ [] ∧ 2 ∈ methods ∧ w = [5, 2, 1, 0] ∧
          IsSubnegotiation (fun uname passwd => ∃ user ∈ users, SameText user uname passwd)
            behind rest) := by
  constructor
  · intro h
    obtain ⟨⟨v, s1⟩, hver, hverOk⟩ := silent_bind_eq_ok.mp h
    obtain rfl := readU8_eq_ok.mp hver
    dsimp only at hverOk
    split at hverOk
    · exact absurd hverOk bail_ne_ok
    rename_i hfive
    obtain ⟨⟨n, s2⟩, hn, hnOk⟩ := silent_bind_eq_ok.mp hverOk
    obtain rfl := readU8_eq_ok.mp hn
    obtain ⟨⟨methods, behind⟩, hmethods, hmethodsOk⟩ := silent_bind_eq_ok.mp hnOk
    obtain ⟨rfl, hshort, rfl⟩ := readN_toNat_eq_ok.mp hmethods
    rw [not_not] at hfive
    refine ⟨methods, behind, ⟨hshort, by rw [hfive]; rfl⟩, ?_⟩
    dsimp only at hmethodsOk
    split at hmethodsOk
    · rename_i hoffered
      obtain ⟨w', hsubOk, rfl⟩ := write_bind_eq_ok.mp hmethodsOk
      obtain ⟨rfl, hsub⟩ := subnegotiate_eq_ok.mp hsubOk
      rw [Bool.and_eq_true, Bool.not_eq_true', List.isEmpty_eq_false_iff,
        List.contains_iff_mem] at hoffered
      exact .inr ⟨hoffered.1, hoffered.2, rfl, hsub⟩
    split at hmethodsOk
    · rename_i hoffered
      obtain ⟨w', hend, rfl⟩ := write_bind_eq_ok.mp hmethodsOk
      obtain ⟨rfl, heq⟩ := silent_eq_ok.mp hend
      cases heq
      rw [Bool.and_eq_true, Bool.not_not, List.isEmpty_iff, List.contains_iff_mem] at hoffered
      exact .inl ⟨hoffered.1, hoffered.2, rfl, rfl⟩
    · obtain ⟨w', hbail, -⟩ := write_bind_eq_ok.mp hmethodsOk
      exact absurd hbail bail_ne_ok
  · rintro ⟨methods, behind, ⟨hshort, rfl⟩, hauth⟩
    refine silent_bind_eq_ok.mpr ⟨_, readU8_eq_ok.mpr rfl, ?_⟩
    refine silent_bind_eq_ok.mpr ⟨_, readU8_eq_ok.mpr rfl, ?_⟩
    refine silent_bind_eq_ok.mpr ⟨_, readN_toNat_eq_ok.mpr ⟨rfl, hshort, rfl⟩, ?_⟩
    dsimp only
    rcases hauth with ⟨rfl, hoffered, rfl, rfl⟩ | ⟨husers, hoffered, rfl, hsub⟩
    · rw [if_neg (by simp), if_pos (by simpa [methodNoAuth] using hoffered)]
      rfl
    · rw [if_pos (by simpa [methodPassword, husers] using hoffered)]
      exact write_bind_eq_ok.mpr ⟨[1, 0], subnegotiate_eq_ok.mpr ⟨rfl, hsub⟩, rfl⟩

/-- **Handshakes.**  A stream is connected to `target` exactly if it is a handshake for it
with credentials that decode to those of a user. -/
theorem handshake_eq_ok {users : List SocksUser} {s written rest : Bytes} {target : String} :
    handshake users s = ⟨written, .ok (target, rest)⟩ ↔
      IsHandshake SameText users s written target rest := by
  constructor
  · intro h
    obtain ⟨w₁, request, w₂, hgreet, hrequestOk, rfl⟩ := bind_eq_ok.mp h
    obtain ⟨rfl, hrequest⟩ := readRequest_eq_ok.mp hrequestOk
    obtain ⟨methods, behind, hgreeting, hauth⟩ := greet_eq_ok.mp hgreet
    rw [List.append_nil]
    refine ⟨methods, behind, hgreeting, ?_⟩
    rcases hauth with ⟨husers, hoffered, rfl, hw⟩ | ⟨husers, hoffered, hw, hsub⟩
    · exact .inl ⟨husers, hoffered, hrequest, hw⟩
    · exact .inr ⟨husers, hoffered, hw, request, hsub, hrequest⟩
  · rintro ⟨methods, behind, hgreeting, hauth⟩
    rcases hauth with ⟨husers, hoffered, hrequest, rfl⟩ |
      ⟨husers, hoffered, rfl, request, hsub, hrequest⟩
    · exact bind_eq_ok.mpr ⟨[5, 0], behind, [],
        greet_eq_ok.mpr ⟨methods, behind, hgreeting, .inl ⟨husers, hoffered, rfl, rfl⟩⟩,
        readRequest_eq_ok.mpr ⟨rfl, hrequest⟩, rfl⟩
    · exact bind_eq_ok.mpr ⟨[5, 2, 1, 0], request, [],
        greet_eq_ok.mpr ⟨methods, behind, hgreeting, .inr ⟨husers, hoffered, rfl, hsub⟩⟩,
        readRequest_eq_ok.mpr ⟨rfl, hrequest⟩, rfl⟩

/-- A relay to `target` starts behind a handshake, with the success reply as the last
answer. -/
theorem handle_eq_ok {connect : String → Option String} {users : List SocksUser}
    {s written rest : Bytes} {target : String} :
    handle connect users s = ⟨written, .ok (target, rest)⟩ ↔ connect target = none ∧
      ∃ w, IsHandshake SameText users s w target rest ∧
        written = w ++ sendReply repSuccess := by
  constructor
  · intro h
    obtain ⟨w, ⟨target', rest'⟩, w', hshake, hend, rfl⟩ := bind_eq_ok.mp h
    cases hconnect : connect target' with
    | none =>
      simp only [hconnect] at hend
      obtain ⟨w'', hreturn, rfl⟩ := write_bind_eq_ok.mp hend
      obtain ⟨rfl, heq⟩ := silent_eq_ok.mp hreturn
      cases heq
      exact ⟨hconnect, w, handshake_eq_ok.mp hshake, by rw [List.append_nil]⟩
    | some e =>
      simp only [hconnect] at hend
      obtain ⟨w'', hbail, -⟩ := write_bind_eq_ok.mp hend
      exact absurd hbail bail_ne_ok
  · rintro ⟨hconnect, w, hshake, rfl⟩
    refine bind_eq_ok.mpr ⟨w, _, sendReply repSuccess, handshake_eq_ok.mpr hshake, ?_, rfl⟩
    simp only [hconnect]
    rfl

/-! ## Credentials as bytes -/

/-- A user whose name and password can be told from their lossy decoding. -/
def Faithful (user : SocksUser) : Prop :=
  replacement ∉ user.username.toList ∧ replacement ∉ user.password.toList

theorem Faithful.sameText_iff {user : SocksUser} (h : Faithful user) {uname passwd : Bytes} :
    SameText user uname passwd ↔ SameBytes user uname passwd := by
  rw [SameText, SameBytes, eq_comm, fromUtf8Lossy_eq_iff h.1, eq_comm,
    eq_comm (a := user.password), fromUtf8Lossy_eq_iff h.2, eq_comm (a := passwd)]

theorem isHandshake_congr {are are' : SocksUser → Bytes → Bytes → Prop} {users : List SocksUser}
    (h : ∀ user ∈ users, ∀ uname passwd, are user uname passwd ↔ are' user uname passwd)
    {s written rest : Bytes} {target : String} :
    IsHandshake are users s written target rest ↔ IsHandshake are' users s written target rest := by
  have hpasses : (fun uname passwd => ∃ user ∈ users, are user uname passwd) =
      fun uname passwd => ∃ user ∈ users, are' user uname passwd := by
    funext uname passwd
    exact propext (exists_congr fun user =>
      and_congr_right fun hmem => h user hmem uname passwd)
  rw [IsHandshake, IsHandshake, hpasses]

/-- **SOCKS5 handshakes.**  `handle` gets to the connection to `target`, after it wrote
`written`, exactly on a handshake whose credentials decode to those of a user; and if no
configured text has U+FFFD in it, exactly on one whose credentials are those of a user. -/
theorem handshake_iff (users : List SocksUser) (s written : Bytes) (target : String)
    (rest : Bytes) :
    (handshake users s = ⟨written, .ok (target, rest)⟩ ↔
      IsHandshake SameText users s written target rest) ∧
    ((∀ user ∈ users, Faithful user) →
      (handshake users s = ⟨written, .ok (target, rest)⟩ ↔
        IsHandshake SameBytes users s written target rest)) := by
  refine ⟨handshake_eq_ok, fun hfaithful => ?_⟩
  rw [handshake_eq_ok]
  exact isHandshake_congr fun user hmem _ _ => (hfaithful user hmem).sameText_iff

/-- Bytes behind their length can be told from what follows them. -/
theorem lengthPrefixed_inj {a b rest rest' : Bytes} (ha : a.length ≤ 255) (hb : b.length ≤ 255)
    (h : UInt8.ofNat a.length :: (a ++ rest) = UInt8.ofNat b.length :: (b ++ rest')) :
    a = b ∧ rest = rest' := by
  obtain ⟨hlen, hbytes⟩ := List.cons.inj h
  rw [← UInt8.toNat_inj, UInt8.toNat_ofNat', UInt8.toNat_ofNat'] at hlen
  exact List.append_inj hbytes (by omega)

/-- A user named U+FFFD: the name `0xFF` of a client passes for it. -/
theorem not_handshake_sameBytes : ¬ ∀ users s written target rest,
    handshake users s = ⟨written, .ok (target, rest)⟩ ↔
      IsHandshake SameBytes users s written target rest := by
  intro h
  have hconnects : handshake [⟨"\uFFFD", "p"⟩]
      (5 :: 1 :: ([2] ++ 1 :: 1 :: ([0xFF] ++ [1, 112, 5, 1, 0, 1, 127, 0, 0, 1, 0, 80]))) =
        ⟨[5, 2, 1, 0], .ok ("127.0.0.1:80", [])⟩ := by
    decide +kernel
  obtain ⟨methods, behind, ⟨hshort, hgreeting⟩, hauth⟩ := (h _ _ _ _ _).mp hconnects
  obtain ⟨-, rfl⟩ := lengthPrefixed_inj (a := [2]) (by decide) hshort (List.cons.inj hgreeting).2
  rcases hauth with ⟨hnil, -⟩ | ⟨-, -, -, request, ⟨uname, passwd, hushort, -, hpass, hsub⟩, -⟩
  · cases hnil
  · obtain ⟨rfl, -⟩ := lengthPrefixed_inj (a := [0xFF]) (by decide) hushort (List.cons.inj hsub).2
    obtain ⟨user, hmem, hname, -⟩ := hpass
    rw [List.mem_singleton.mp hmem] at hname
    exact absurd hname (by decide)

end Ruproxy.Socks
