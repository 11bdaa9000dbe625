/-
  Hysteria2/Connection.lean --- `handle_connection`, from the first request to the proxied data.

  A connection begins as one of HTTP/3.  Requests are answered by `masquerade`, each in a task
  of its own, until one of them is a login.  The password decides: the connection is closed, or
  its two loops are spawned, one for streams and one for datagrams.  From then on it speaks no
  HTTP any more.

  The tasks, the loops and the web behind `masquerade` take turns in any order.  The map of
  header fields comes from outside and is a parameter.
-/
import Ruproxy.Hysteria2.Bandwidth
import Ruproxy.Hysteria2.Masquerade
import Ruproxy.Hysteria2.SessionTable
import Ruproxy.Hysteria2.TcpStream

set_option autoImplicit false

namespace Ruproxy.Hysteria2

open Ruproxy.Foundation Ruproxy.Foundation.Http Ruproxy.Foundation.Tunnel
open Ruproxy.Foundation.Transition
open Ruproxy.Tunnel (CopyEvent)

/-! ## Logins -/

/-- `AuthConfig`. -/
inductive AuthConfig where
  | password (password : String)
  | none

/-- `Hysteria2Config`, as far as a connection reads it. -/
structure Hysteria2Config where
  auth : AuthConfig
  /-- `bandwidth.down` -/
  down : Option String
  masquerade : MasqueradeConfig

/-- `is_auth`. -/
def isAuth {H : Type} (req : HttpRequest H) : Prop :=
  req.method = "POST" ∧ req.host.getD "" = "hysteria" ∧ req.path = "/auth"

instance {H : Type} (req : HttpRequest H) : Decidable (isAuth req) :=
  inferInstanceAs (Decidable (_ ∧ _ ∧ _))

/-- `ok`, for `auth_val`. -/
def authOk (auth : AuthConfig) (authVal : String) : Prop :=
  match auth with
  | .password password => authVal = password
  | .none => True

instance (auth : AuthConfig) (authVal : String) : Decidable (authOk auth authVal) :=
  match auth with
  | .password password => inferInstanceAs (Decidable (authVal = password))
  | .none => .isTrue trivial

/-- A request that logs in. -/
structure Login (H : Type) [HeaderMap H] (cfg : Hysteria2Config) where
  req : HttpRequest H
  isAuth : isAuth req
  ok : authOk cfg.auth (text req.headers "hysteria-auth")

/-- The results of `gen_padding`. -/
def PaddingOf (min max : Nat) : Type :=
  { padding : Bytes // min ≤ padding.length ∧ padding.length < max ∧
    ∀ b ∈ padding, b ∈ paddingChars }

/-- The response to a login. -/
structure AuthResponse (H : Type) where
  status : Nat
  headers : H

/-- `BandwidthConfig::down_bps`. -/
def Hysteria2Config.downBps (cfg : Hysteria2Config) (toLowercase : String → String) :
    Option UInt64 :=
  cfg.down.bind (parseBps toLowercase)

/-- `cc_rx`. -/
def Hysteria2Config.ccRx (cfg : Hysteria2Config) (toLowercase : String → String) : String :=
  ((cfg.downBps toLowercase).map fun bps => dec bps.toNat).getD "0"

/-- The response of `send_auth_ok`. -/
def authOkResponse {H : Type} [HeaderMap H] (ccRx : String) (padding : PaddingOf 256 2048) :
    AuthResponse H :=
  let headers := HeaderMap.append HeaderMap.new "hysteria-udp" (asBytes "true")
  let headers := HeaderMap.append headers "hysteria-cc-rx" (asBytes ccRx)
  ⟨233, HeaderMap.append headers "hysteria-padding" padding.val⟩

/-- The response of `send_auth_fail`. -/
def authFailResponse {H : Type} [HeaderMap H] (padding : PaddingOf 64 256) : AuthResponse H :=
  ⟨403, HeaderMap.append HeaderMap.new "hysteria-padding" padding.val⟩

/-! ## The connection -/

/-- Where `handle_connection` is. -/
inductive Phase (H : Type) [HeaderMap H] (cfg : Hysteria2Config) where
  /-- in `h3.accept` or `resolve_request` -/
  | accepting
  /-- in `send_auth_ok` -/
  | granting (login : Login H cfg)
  /-- in `send_auth_fail` -/
  | refusing
  /-- in `select!` -/
  | serving
  /-- it has returned -/
  | returned
  /-- it has returned behind `conn.close` -/
  | closed (code : Nat) (reason : String)

/-- A task of `masquerade`, and what it has sent. -/
structure MasqueradeTask (H : Type) where
  req : HttpRequest H
  answer : Option (MasqResponse H)

/-- A task of `handle_tcp_bidi`, for a stream of the client and the answers of all targets. -/
structure TcpTask where
  padding : Padding
  client : Bytes
  upstream : String → Bytes
  conn : Conn (tunnel padding) client upstream

/-- What is spawned for a login. -/
structure Service (H : Type) [HeaderMap H] (cfg : Hysteria2Config) where
  login : Login H cfg
  /-- `quic_tcp_loop` has ended -/
  tcpEnded : Bool
  streams : List TcpTask
  /-- `datagram_loop` and what it has spawned -/
  sessions : Sessions

/-- A connection. -/
structure Connection (H : Type) [HeaderMap H] (cfg : Hysteria2Config) where
  phase : Phase H cfg
  /-- the requests that were resolved -/
  requests : List (HttpRequest H)
  masquerades : List (MasqueradeTask H)
  /-- what was sent to the login -/
  response : Option (AuthResponse H)
  service : Option (Service H cfg)

/-- What happens next on a connection. -/
inductive HandleEvent (H : Type) where
  /-- `h3.accept` returns a request -/
  | request (req : HttpRequest H)
  /-- it returns one that cannot be resolved -/
  | unresolved
  /-- it returns nothing or an error -/
  | ended
  /-- `send_auth_ok` returns -/
  | granted (padding : PaddingOf 256 2048)
  /-- `send_auth_ok` fails, before or behind the response -/
  | grantError (padding : Option (PaddingOf 256 2048))
  /-- `send_auth_fail` returns or fails -/
  | refused (padding : Option (PaddingOf 64 256))
  /-- a task of `masquerade` sends a response -/
  | masquerade (task : Nat) (web : Web H)
  /-- `accept_bi` returns a stream -/
  | acceptBi (padding : Padding) (client : Bytes) (upstream : String → Bytes)
  /-- `accept_bi` fails -/
  | acceptError
  /-- a step of a stream -/
  | stream (task : Nat) (e : ConnEvent CopyEvent)
  /-- a step of the datagrams -/
  | udp (e : ConnectionEvent)
  /-- `select!` returns -/
  | select

/-- A step of a stream. -/
def TcpTask.step (t : TcpTask) (e : ConnEvent CopyEvent) : Option TcpTask :=
  (t.conn.step e).map fun conn => { t with conn := conn }

/-- A step of what was spawned for the login. -/
def Service.step {H : Type} [HeaderMap H] {cfg : Hysteria2Config} (sv : Service H cfg) :
    HandleEvent H → Option (Service H cfg)
  | .acceptBi padding client upstream =>
      if sv.tcpEnded then none
      else some { sv with streams := sv.streams ++ [⟨padding, client, upstream, .reading⟩] }
  | .acceptError => if sv.tcpEnded then none else some { sv with tcpEnded := true }
  | .stream task e =>
      sv.streams[task]?.bind fun t => (t.step e).map fun t =>
        { sv with streams := sv.streams.set task t }
  | .udp e => (sv.sessions.step e).map fun sessions => { sv with sessions := sessions }
  | _ => none

namespace Connection

variable {H : Type} [HeaderMap H] {cfg : Hysteria2Config}

/-- The start of `handle_connection`, with the HTTP/3 connection set up. -/
def init : Connection H cfg where
  phase := .accepting
  requests := []
  masquerades := []
  response := none
  service := none

/-- The body of the loop for a request. -/
def request (c : Connection H cfg) (req : HttpRequest H) : Connection H cfg :=
  if hauth : isAuth req then
    if hok : authOk cfg.auth (text req.headers "hysteria-auth") then
      { c with requests := c.requests ++ [req], phase := .granting ⟨req, hauth, hok⟩ }
    else { c with requests := c.requests ++ [req], phase := .refusing }
  else
    { c with
      requests := c.requests ++ [req]
      masquerades := c.masquerades ++ [⟨req, none⟩] }

/-- One step; `none` where the event cannot happen. -/
def step (toLowercase : String → String) (c : Connection H cfg) :
    HandleEvent H → Option (Connection H cfg)
  | .request req =>
      match c.phase with
      | .accepting => some (c.request req)
      | _ => none
  | .unresolved =>
      match c.phase with
      | .accepting => some c
      | _ => none
  | .ended =>
      match c.phase with
      | .accepting => some { c with phase := .returned }
      | _ => none
  | .granted padding =>
      match c.phase with
      | .granting login =>
          some { c with
            phase := .serving
            response := some (authOkResponse (cfg.ccRx toLowercase) padding)
            service := some ⟨login, false, [], .init⟩ }
      | _ => none
  | .grantError padding =>
      match c.phase with
      | .granting _ =>
          some { c with
            phase := .returned
            response := padding.map (authOkResponse (cfg.ccRx toLowercase)) }
      | _ => none
  | .refused padding =>
      match c.phase with
      | .refusing =>
          some { c with
            phase := .closed 1 "auth failed"
            response := padding.map authFailResponse }
      | _ => none
  | .masquerade task web =>
      match c.masquerades[task]? with
      | some ⟨req, none⟩ =>
          some { c with
            masquerades := c.masquerades.set task
              ⟨req, some (Hysteria2.masquerade web cfg.masquerade req)⟩ }
      | _ => none
  | .select =>
      match c.phase, c.service with
      | .serving, some sv =>
          if sv.tcpEnded ∨ sv.sessions.loop = .ended then some { c with phase := .closed 0 "" }
          else none
      | _, _ => none
  | e => c.service.bind fun sv => (sv.step e).map fun sv => { c with service := some sv }

/-! ## The gate -/

/-- What has become of a connection whose requests are `requests`. -/
inductive Course (toLowercase : String → String) (requests : List (HttpRequest H)) :
    Phase H cfg → Option (AuthResponse H) → Option (Service H cfg) → Prop where
  /-- no login has come -/
  | waiting {phase : Phase H cfg} (hnone : ∀ req ∈ requests, ¬ isAuth req)
      (hphase : phase = .accepting ∨ phase = .returned) :
      Course toLowercase requests phase none none
  /-- a login has come, and the response is on its way or has not got through -/
  | granting {before : List (HttpRequest H)} (login : Login H cfg)
      (hrequests : requests = before ++ [login.req]) (hbefore : ∀ req ∈ before, ¬ isAuth req)
      {phase : Phase H cfg} {response : Option (AuthResponse H)}
      (hphase : (phase = .granting login ∧ response = none) ∨ phase = .returned) :
      Course toLowercase requests phase response none
  /-- a login has failed -/
  | refused {before : List (HttpRequest H)} {req : HttpRequest H}
      (hrequests : requests = before ++ [req])
      (hbefore : ∀ req ∈ before, ¬ isAuth req) (hauth : isAuth req)
      (hfail : ¬ authOk cfg.auth (text req.headers "hysteria-auth"))
      {phase : Phase H cfg} {response : Option (AuthResponse H)}
      (hphase : phase = .refusing ∨ phase = .closed 1 "auth failed")
      (hresponse : ∀ r, response = some r → ∃ padding, r = authFailResponse padding) :
      Course toLowercase requests phase response none
  /-- the client is served -/
  | served {before : List (HttpRequest H)} (sv : Service H cfg)
      (hrequests : requests = before ++ [sv.login.req]) (hbefore : ∀ req ∈ before, ¬ isAuth req)
      {phase : Phase H cfg} (hphase : phase = .serving ∨ phase = .closed 0 "")
      (padding : PaddingOf 256 2048) (hsessions : Reachable Sessions.step .init sv.sessions) :
      Course toLowercase requests phase (some (authOkResponse (cfg.ccRx toLowercase) padding))
        (some sv)

/-- The requests that are no logins are answered by `masquerade`, and by nothing else. -/
structure Masquerades (c : Connection H cfg) : Prop where
  reqs_eq : c.masquerades.map MasqueradeTask.req = c.requests.filter fun req => ¬ isAuth req
  answered : ∀ m ∈ c.masquerades, ∀ r, m.answer = some r →
    ∃ web, r = masquerade web cfg.masquerade m.req

variable {toLowercase : String → String} {c c' : Connection H cfg} {e : HandleEvent H}

theorem masquerades_request (h : Masquerades c) (req : HttpRequest H) :
    Masquerades (c.request req) := by
  have hfilter : (c.requests ++ [req]).filter (fun req => ¬ isAuth req) =
      c.masquerades.map MasqueradeTask.req ++ if isAuth req then [] else [req] := by
    rw [List.filter_append, h.reqs_eq]
    split
    · rename_i hauth
      simp [hauth]
    · rename_i hauth
      simp [hauth]
  unfold request
  split
  · rename_i hauth
    rw [if_pos hauth, List.append_nil] at hfilter
    split
    · exact ⟨hfilter.symm, h.answered⟩
    · exact ⟨hfilter.symm, h.answered⟩
  · rename_i hauth
    rw [if_neg hauth] at hfilter
    refine ⟨by rw [hfilter, List.map_append]; rfl, fun m hm r hr => ?_⟩
    rcases List.mem_append.mp hm with hm | hm
    · exact h.answered m hm r hr
    · obtain rfl := List.mem_singleton.mp hm
      cases hr

theorem masquerades_answer (h : Masquerades c) {task : Nat} {req : HttpRequest H}
    (htask : c.masquerades[task]? = some ⟨req, none⟩) (web : Web H) :
    Masquerades { c with
      masquerades := c.masquerades.set task ⟨req, some (masquerade web cfg.masquerade req)⟩ } where
  reqs_eq := by
    rw [← h.reqs_eq]
    refine List.ext_getElem? fun i => ?_
    rcases eq_or_ne task i with rfl | hne
    · rw [List.getElem?_map, List.getElem?_set_self (List.getElem?_eq_some_iff.mp htask).1,
        List.getElem?_map, htask]
      rfl
    · rw [List.getElem?_map, List.getElem?_set_ne hne, List.getElem?_map]
  answered m hm r hr := by
    rcases List.mem_or_eq_of_mem_set hm with hm | rfl
    · exact h.answered m hm r hr
    · exact ⟨web, (Option.some.inj hr).symm⟩

/-- A step of what was spawned keeps the login, and takes the datagrams one step on. -/
theorem service_step {sv sv' : Service H cfg} (h : sv.step e = some sv') :
    sv'.login = sv.login ∧ Reachable Sessions.step sv.sessions sv'.sessions := by
  cases e with
  | acceptBi padding client upstream | acceptError =>
    simp only [Service.step] at h
    split at h
    · cases h
    · cases h
      exact ⟨rfl, [], rfl⟩
  | stream task e =>
    obtain ⟨t, -, hmap⟩ := Option.bind_eq_some_iff.mp h
    obtain ⟨t', -, rfl⟩ := Option.map_eq_some_iff.mp hmap
    exact ⟨rfl, [], rfl⟩
  | udp e =>
    obtain ⟨sessions, hstep, rfl⟩ := Option.map_eq_some_iff.mp h
    exact ⟨rfl, [e], run_cons_eq_some.mpr ⟨sessions, hstep, rfl⟩⟩
  | _ => cases h

/-- The invariant of a connection. -/
def Gated (toLowercase : String → String) (c : Connection H cfg) : Prop :=
  Masquerades c ∧ Course toLowercase c.requests c.phase c.response c.service

theorem gated_init : Gated toLowercase (init : Connection H cfg) :=
  ⟨⟨rfl, fun m hm => by cases hm⟩, .waiting (fun req hreq => by cases hreq) (.inl rfl)⟩

section Courses

variable {requests : List (HttpRequest H)} {phase : Phase H cfg}
  {response : Option (AuthResponse H)} {service : Option (Service H cfg)}

theorem course_accepting (h : Course toLowercase requests phase response service)
    (hphase : phase = .accepting) :
    (∀ req ∈ requests, ¬ isAuth req) ∧ response = none ∧ service = none := by
  cases h with
  | waiting hnone _ => exact ⟨hnone, rfl, rfl⟩
  | granting login _ _ hphase' => rcases hphase' with ⟨rfl, -⟩ | rfl <;> cases hphase
  | refused _ _ _ _ hphase' _ => rcases hphase' with rfl | rfl <;> cases hphase
  | served sv _ _ hphase' _ _ => rcases hphase' with rfl | rfl <;> cases hphase

theorem course_granting (h : Course toLowercase requests phase response service)
    {login : Login H cfg} (hphase : phase = .granting login) :
    ∃ before, requests = before ++ [login.req] ∧ (∀ req ∈ before, ¬ isAuth req) ∧
      response = none ∧ service = none := by
  cases h with
  | waiting _ hphase' => rcases hphase' with rfl | rfl <;> cases hphase
  | granting login' hrequests hbefore hphase' =>
    rcases hphase' with ⟨rfl, rfl⟩ | rfl
    · cases hphase
      exact ⟨_, hrequests, hbefore, rfl, rfl⟩
    · cases hphase
  | refused _ _ _ _ hphase' _ => rcases hphase' with rfl | rfl <;> cases hphase
  | served sv _ _ hphase' _ _ => rcases hphase' with rfl | rfl <;> cases hphase

theorem course_refusing (h : Course toLowercase requests phase response service)
    (hphase : phase = .refusing) :
    (∃ before req, requests = before ++ [req] ∧ (∀ req ∈ before, ¬ isAuth req) ∧ isAuth req ∧
      ¬ authOk cfg.auth (text req.headers "hysteria-auth")) ∧ service = none := by
  cases h with
  | waiting _ hphase' => rcases hphase' with rfl | rfl <;> cases hphase
  | granting login _ _ hphase' => rcases hphase' with ⟨rfl, -⟩ | rfl <;> cases hphase
  | refused hrequests hbefore hauth hfail _ _ =>
    exact ⟨⟨_, _, hrequests, hbefore, hauth, hfail⟩, rfl⟩
  | served sv _ _ hphase' _ _ => rcases hphase' with rfl | rfl <;> cases hphase

/-- A request that is awaited. -/
theorem course_request (h : Course toLowercase c.requests c.phase c.response c.service)
    (hphase : c.phase = .accepting) (req : HttpRequest H) :
    Course toLowercase (c.request req).requests (c.request req).phase (c.request req).response
      (c.request req).service := by
  obtain ⟨hnone, hresponse, hservice⟩ := course_accepting h hphase
  unfold request
  split
  · rename_i hauth
    split
    · rename_i hok
      simp only [hresponse, hservice]
      exact .granting ⟨req, hauth, hok⟩ rfl hnone (.inl ⟨rfl, rfl⟩)
    · rename_i hfail
      simp only [hresponse, hservice]
      exact .refused rfl hnone hauth hfail (.inl rfl) nofun
  · rename_i hauth
    simp only [hresponse, hservice, hphase]
    refine .waiting (fun req' hreq' => ?_) (.inl rfl)
    rcases List.mem_append.mp hreq' with hreq' | hreq'
    · exact hnone req' hreq'
    · rw [List.mem_singleton.mp hreq']
      exact hauth

/-- What was spawned takes a step. -/
theorem course_service {sv sv' : Service H cfg}
    (h : Course toLowercase requests phase response (some sv)) (hstep : sv.step e = some sv') :
    Course toLowercase requests phase response (some sv') := by
  obtain ⟨hlogin, es, hes⟩ := service_step hstep
  cases h with
  | served sv hrequests hbefore hphase padding hsessions =>
    obtain ⟨fs, hfs⟩ := hsessions
    refine .served sv' (hlogin ▸ hrequests) hbefore hphase padding ⟨fs ++ es, ?_⟩
    rw [run_append, hfs]
    exact hes

/-- A loop has ended. -/
theorem course_select {sv : Service H cfg}
    (h : Course toLowercase requests phase response (some sv)) :
    Course toLowercase requests (.closed 0 "") response (some sv) := by
  cases h with
  | served sv hrequests hbefore _ padding hsessions =>
    exact .served sv hrequests hbefore (.inr rfl) padding hsessions

theorem course_served {sv : Service H cfg}
    (h : Course toLowercase requests phase response (some sv)) :
    (∃ before, requests = before ++ [sv.login.req]) ∧
      (∃ padding, response = some (authOkResponse (cfg.ccRx toLowercase) padding)) ∧
        Reachable Sessions.step .init sv.sessions := by
  cases h with
  | served sv hrequests _ _ padding hsessions =>
    exact ⟨⟨_, hrequests⟩, ⟨padding, rfl⟩, hsessions⟩

end Courses

/-- Every step keeps the gate. -/
theorem gated_step (h : Gated toLowercase c) (hstep : c.step toLowercase e = some c') :
    Gated toLowercase c' := by
  obtain ⟨hmasq, hcourse⟩ := h
  have hspawned : (c.service.bind fun sv => (sv.step e).map fun sv =>
      { c with service := some sv }) = some c' → Gated toLowercase c' := by
    intro hbind
    obtain ⟨sv, hservice, hmap⟩ := Option.bind_eq_some_iff.mp hbind
    obtain ⟨sv', hsv, rfl⟩ := Option.map_eq_some_iff.mp hmap
    rw [hservice] at hcourse
    exact ⟨⟨hmasq.reqs_eq, hmasq.answered⟩, course_service hcourse hsv⟩
  cases e with
  | request req =>
    simp only [step] at hstep
    split at hstep
    · rename_i hphase
      cases hstep
      exact ⟨masquerades_request hmasq req, course_request hcourse hphase req⟩
    · cases hstep
  | unresolved =>
    simp only [step] at hstep
    split at hstep
    · cases hstep
      exact ⟨hmasq, hcourse⟩
    · cases hstep
  | ended =>
    simp only [step] at hstep
    split at hstep
    · rename_i hphase
      cases hstep
      obtain ⟨hnone, hresponse, hservice⟩ := course_accepting hcourse hphase
      refine ⟨⟨hmasq.reqs_eq, hmasq.answered⟩, ?_⟩
      simp only [hresponse, hservice]
      exact .waiting hnone (.inr rfl)
    · cases hstep
  | granted padding =>
    simp only [step] at hstep
    split at hstep
    · rename_i login hphase
      cases hstep
      obtain ⟨before, hrequests, hbefore, -, -⟩ := course_granting hcourse hphase
      exact ⟨⟨hmasq.reqs_eq, hmasq.answered⟩,
        .served _ hrequests hbefore (.inl rfl) padding ⟨[], rfl⟩⟩
    · cases hstep
  | grantError padding =>
    simp only [step] at hstep
    split at hstep
    · rename_i login hphase
      cases hstep
      obtain ⟨before, hrequests, hbefore, -, hservice⟩ := course_granting hcourse hphase
      refine ⟨⟨hmasq.reqs_eq, hmasq.answered⟩, ?_⟩
      simp only [hservice]
      exact .granting login hrequests hbefore (.inr rfl)
    · cases hstep
  | refused padding =>
    simp only [step] at hstep
    split at hstep
    · rename_i hphase
      cases hstep
      obtain ⟨⟨before, req, hrequests, hbefore, hauth, hfail⟩, hservice⟩ :=
        course_refusing hcourse hphase
      refine ⟨⟨hmasq.reqs_eq, hmasq.answered⟩, ?_⟩
      simp only [hservice]
      refine .refused hrequests hbefore hauth hfail (.inr rfl) fun r hr => ?_
      obtain ⟨padding, -, rfl⟩ := Option.map_eq_some_iff.mp hr
      exact ⟨padding, rfl⟩
    · cases hstep
  | masquerade task web =>
    simp only [step] at hstep
    split at hstep
    · rename_i req htask
      cases hstep
      exact ⟨masquerades_answer hmasq htask web, hcourse⟩
    · cases hstep
  | select =>
    simp only [step] at hstep
    split at hstep
    · rename_i sv _ hservice
      split at hstep
      · cases hstep
        rw [hservice] at hcourse
        refine ⟨⟨hmasq.reqs_eq, hmasq.answered⟩, ?_⟩
        simp only [hservice]
        exact course_select hcourse
      · cases hstep
    · cases hstep
  | acceptBi padding client upstream | acceptError | stream task e | udp e => exact hspawned hstep

/-! ## What a connection does -/

/-- A stream of the client is a tunnel behind a request: without one nothing is passed on. -/
def TcpTask.Tunneled (t : TcpTask) : Prop :=
  (t.conn.dialed = none → t.conn.toTarget = []) ∧
    ∀ target, t.conn.dialed = some target →
      ∃ rest, IsTcpStream t.client target rest ∧ t.conn.Faithful [] target rest

theorem tunneled (t : TcpTask) : TcpTask.Tunneled t := by
  refine ⟨fun hnone => ?_, fun target htarget => ?_⟩
  · exact (t.conn.refused_of_accepted (Option.map_eq_none_iff.mp hnone)).1
  · obtain ⟨a, ha, rfl⟩ := Option.map_eq_some_iff.mp htarget
    exact ⟨a.rest, acceptTcp_eq_some.mp a.accepted, t.conn.faithful_of_accepted ha⟩

/-- What a login shows. -/
theorem login_header (hlaws : HeaderMap.Lawful H) {auth : AuthConfig} {headers : H}
    (h : authOk auth (text headers "hysteria-auth")) {password : String}
    (hauth : auth = .password password) (hne : password ≠ "") :
    HeaderMap.get headers "hysteria-auth" = some (asBytes password) ∧
      (asBytes password).all isVisible := by
  subst hauth
  exact (text_eq_iff hlaws hne).mp h

/-- Behind requests that are no logins there is one at most. -/
theorem after_eq_nil {H : Type} {front before after : List (HttpRequest H)} {last req : HttpRequest H}
    (hfront : ∀ req ∈ front, ¬ isAuth req) (h : front ++ [last] = before ++ req :: after)
    (hauth : isAuth req) : after = [] := by
  rcases List.eq_nil_or_concat after with rfl | ⟨more, final, rfl⟩
  · rfl
  · rw [List.concat_eq_append, ← List.cons_append, ← List.append_assoc] at h
    have hin : req ∈ front := by
      rw [List.append_inj_left' h rfl]
      simp
    exact absurd hauth (hfront req hin)

/-- No request is heard behind a login. -/
theorem course_last {requests : List (HttpRequest H)} {phase : Phase H cfg}
    {response : Option (AuthResponse H)} {service : Option (Service H cfg)}
    (h : Course toLowercase requests phase response service) {before after : List (HttpRequest H)}
    {req : HttpRequest H} (hall : requests = before ++ req :: after) (hauth : isAuth req) :
    after = [] := by
  cases h with
  | waiting hnone _ => exact absurd hauth (hnone req (hall ▸ by simp))
  | granting login heq hbefore _ => exact after_eq_nil hbefore (heq.symm.trans hall) hauth
  | refused heq hbefore _ _ _ _ => exact after_eq_nil hbefore (heq.symm.trans hall) hauth
  | served sv heq hbefore _ _ _ => exact after_eq_nil hbefore (heq.symm.trans hall) hauth

/-- A login that fails among the requests of a course. -/
theorem course_failed {requests : List (HttpRequest H)} {phase : Phase H cfg}
    {response : Option (AuthResponse H)} {service : Option (Service H cfg)}
    (h : Course toLowercase requests phase response service) {req : HttpRequest H}
    (hreq : req ∈ requests) (hauth : isAuth req)
    (hfail : ¬ authOk cfg.auth (text req.headers "hysteria-auth")) :
    service = none ∧ (phase = .refusing ∨ phase = .closed 1 "auth failed") ∧
      ∀ r, response = some r → r.status = 403 := by
  have hlogin : ∀ (before : List (HttpRequest H)) (login : Login H cfg),
      (∀ req ∈ before, ¬ isAuth req) → requests ≠ before ++ [login.req] := by
    rintro before login hbefore rfl
    rcases List.mem_append.mp hreq with hreq | hreq
    · exact hbefore req hreq hauth
    · rw [List.mem_singleton.mp hreq] at hfail
      exact hfail login.ok
  cases h with
  | waiting hnone _ => exact absurd hauth (hnone req hreq)
  | granting login hrequests hbefore _ => exact absurd hrequests (hlogin _ login hbefore)
  | refused _ _ _ _ hphase hresponse =>
    refine ⟨rfl, hphase, fun r hr => ?_⟩
    obtain ⟨padding, rfl⟩ := hresponse r hr
    rfl
  | served sv hrequests hbefore _ _ _ => exact absurd hrequests (hlogin _ sv.login hbefore)

/-- **The gate of a connection.**  In every run: a login is the last request that is heard.
Requests before it get what `masquerade` answers.  A connection dials and relays only behind a
login that shows the bytes of the password, which it has answered with the rate of the
configuration; what it then passes on for a stream is tunneled behind the request of that
stream.  A login that fails is answered with 403 at most, and the connection is closed. -/
theorem run_gate (hlaws : HeaderMap.Lawful H) {toLowercase : String → String}
    {es : List (HandleEvent H)} {c : Connection H cfg}
    (h : run (step toLowercase) (init : Connection H cfg) es = some c) :
    Masquerades c ∧
    (∀ before req after, c.requests = before ++ req :: after → isAuth req → after = []) ∧
    (∀ sv, c.service = some sv →
      (∃ before, c.requests = before ++ [sv.login.req]) ∧
      (∀ password, cfg.auth = .password password → password ≠ "" →
        HeaderMap.get sv.login.req.headers "hysteria-auth" = some (asBytes password) ∧
          (asBytes password).all isVisible) ∧
      (∃ padding, c.response = some (authOkResponse (cfg.ccRx toLowercase) padding)) ∧
      (∀ t ∈ sv.streams, TcpTask.Tunneled t) ∧ Reachable Sessions.step .init sv.sessions) ∧
    ∀ req ∈ c.requests, isAuth req → ¬ authOk cfg.auth (text req.headers "hysteria-auth") →
      c.service = none ∧ (c.phase = .refusing ∨ c.phase = .closed 1 "auth failed") ∧
        ∀ r, c.response = some r → r.status = 403 := by
  have hgated : Gated toLowercase c :=
    Reachable.invariant (fun hg _ hstep => gated_step hg hstep) gated_init ⟨es, h⟩
  obtain ⟨hmasq, hcourse⟩ := hgated
  refine ⟨hmasq, fun before req after hrequests hauth => ?_, fun sv hservice => ?_,
    fun req hreq hauth hfail => course_failed hcourse hreq hauth hfail⟩
  · exact course_last hcourse hrequests hauth
  · rw [hservice] at hcourse
    obtain ⟨hrequests, hresponse, hsessions⟩ := course_served hcourse
    exact ⟨hrequests,
      fun password hpassword hne => login_header hlaws sv.login.ok hpassword hne,
      hresponse, fun t _ => tunneled t, hsessions⟩

/-- A client with the password, behind a request without it. -/
def loginConfig : Hysteria2Config := ⟨.password "secret", none, ⟨"none", none⟩⟩

/-- Its two requests. -/
def loginRequests : List (HttpRequest Fields) :=
  [⟨"GET", some "example.com", "/", some "/", []⟩,
    ⟨"POST", some "hysteria", "/auth", some "/auth", [("hysteria-auth", asBytes "secret")]⟩]

/-- The padding of its response. -/
def loginPadding : PaddingOf 256 2048 := ⟨List.replicate 256 97, by decide +kernel⟩

theorem run_gate_login : ∃ c : Connection Fields loginConfig,
    run (step asciiLowercase) init (loginRequests.map .request ++ [.granted loginPadding]) =
      some c ∧ ∃ sv, c.service = some sv ∧
        HeaderMap.get sv.login.req.headers "hysteria-auth" = some (asBytes "secret") := by
  have hstarted : ((run (step asciiLowercase) (init : Connection Fields loginConfig)
      (loginRequests.map .request ++ [.granted loginPadding])).bind
        Connection.service).isSome = true := by
    decide +kernel
  obtain ⟨sv, hsv⟩ := Option.isSome_iff_exists.mp hstarted
  obtain ⟨c, hrun, hservice⟩ := Option.bind_eq_some_iff.mp hsv
  obtain ⟨-, -, hserved, -⟩ := run_gate fields_lawful hrun
  obtain ⟨-, hpassword, -⟩ := hserved sv hservice
  exact ⟨c, hrun, sv, hservice, (hpassword "secret" rfl (by decide)).1⟩

end Connection

end Ruproxy.Hysteria2
