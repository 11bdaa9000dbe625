/-
  Wireguard/FlowTables.lean --- the flow tables match the socket set.

  `Actor.Inv` keeps the tables and the socket set a well-formed registry.  Here
  this is said about the tables themselves: flows and live sockets correspond one
  to one, kind by kind, and a look-up by the handle of a flow finds its socket.
-/
import Ruproxy.Wireguard.Handles

set_option autoImplicit false

namespace Ruproxy.Wireguard

open Ruproxy.Foundation
open Ruproxy.Foundation.Transition

namespace Actor

/-- The handle stored for a flow key in the table of a kind. -/
def handleOf (a : Actor) : Kind → FlowKey → Option Handle
  | .tcp, key => (a.tcpFlows.lookup key).map TcpFlow.handle
  | .udp, key => (a.udpFlows.lookup key).map UdpFlow.handle

variable {a : Actor}

theorem handleOf_eq_some_iff {k : Kind} {key : FlowKey} {h : Handle} :
    a.handleOf k key = some h ↔ ∃ i, a.registry.entry k key = some (i, h) := by
  cases k with
  | tcp => simp [handleOf, registry, TcpFlow.entry, Option.map_eq_some_iff]
  | udp => simp [handleOf, registry, UdpFlow.entry, Option.map_eq_some_iff]

theorem slot_eq_some_iff {k : Kind} {i : FlowId} {h : Handle} :
    a.registry.slot h = some (k, i) ↔
      ∃ sock, a.sockets h = some sock ∧ sock.kind = k ∧ sock.owner = i := by
  simp [registry, slotUse, Option.map_eq_some_iff]

/-- The flow tables match the socket set. -/
structure TablesMatch (a : Actor) : Prop where
  /-- no two flows have the same handle -/
  distinct : ∀ {k k' key key' h}, a.handleOf k key = some h → a.handleOf k' key' = some h →
    k = k' ∧ key = key'
  /-- the handle of a flow is that of a live socket of its kind -/
  live : ∀ {k key h}, a.handleOf k key = some h → ∃ sock, a.sockets h = some sock ∧ sock.kind = k
  /-- a live socket belongs to exactly one flow -/
  owned : ∀ {h sock}, a.sockets h = some sock →
    ∃! flow : Kind × FlowKey, a.handleOf flow.1 flow.2 = some h
  /-- `get_mut` by the handle of a TCP flow finds its socket -/
  getTcp : ∀ {key f}, a.tcpFlows.lookup key = some f → (a.sockets.getTcp f.handle).isSome
  /-- `get_mut` by the handle of a UDP flow finds its socket -/
  getUdp : ∀ {key f}, a.udpFlows.lookup key = some f → (a.sockets.getUdp f.handle).isSome

theorem Inv.handle_distinct (hinv : a.Inv) {k k' : Kind} {key key' : FlowKey} {h : Handle}
    (h₁ : a.handleOf k key = some h) (h₂ : a.handleOf k' key' = some h) :
    k = k' ∧ key = key' := by
  obtain ⟨i, hentry⟩ := handleOf_eq_some_iff.mp h₁
  obtain ⟨i', hentry'⟩ := handleOf_eq_some_iff.mp h₂
  obtain ⟨hkind, hkey, -⟩ := hinv.wellFormed.eq_of_slot hentry hentry'
  exact ⟨hkind, hkey⟩

theorem Inv.tablesMatch (hinv : a.Inv) : a.TablesMatch where
  distinct := hinv.handle_distinct
  live h := by
    obtain ⟨i, hentry⟩ := handleOf_eq_some_iff.mp h
    obtain ⟨sock, hsock, hkind, -⟩ := slot_eq_some_iff.mp (hinv.wellFormed.live hentry)
    exact ⟨sock, hsock, hkind⟩
  owned {h sock} hsock := by
    obtain ⟨key, hentry⟩ := hinv.wellFormed.owned (slot_eq_some_iff.mpr ⟨sock, hsock, rfl, rfl⟩)
    have hhandle : a.handleOf sock.kind key = some h := handleOf_eq_some_iff.mpr ⟨_, hentry⟩
    refine ⟨(sock.kind, key), hhandle, fun flow hflow => ?_⟩
    obtain ⟨hkind, hkey⟩ := hinv.handle_distinct hflow hhandle
    exact Prod.ext hkind hkey
  getTcp hf := by
    obtain ⟨s, hs, -⟩ := hinv.tcpSocket hf
    rw [SocketSet.getTcp_eq_some.mpr hs]
    rfl
  getUdp hf := by
    obtain ⟨s, hs, -⟩ := hinv.udpSocket hf
    rw [SocketSet.getUdp_eq_some.mpr hs]
    rfl

end Actor

/-- **Flows and sockets.**  In every reachable state the flow tables match the socket
set; and packets and ticks, whose handlers look sockets up by the handles of the tables
only, are handled without a panic, whatever tasks follow at whatever times. -/
theorem System.flows_match_sockets {s : System} (hreach : Reachable System.step System.init s) :
    s.actor.TablesMatch ∧
      ∀ (env : Env) (now : Nat) (m : Msg) (tasks : List (Nat × Task)),
        s.actor.sockets env.slot = none → (m = .tick ∨ ∃ pkt, m = .inbound pkt) →
          ∃ a', ((s.actor.handle env now m).bind fun b => b.performAll tasks) = some a' ∧
            a'.TablesMatch := by
  have hinv : s.Inv := hreach.invariant System.step_inv System.inv_init
  refine ⟨hinv.actor.tablesMatch, fun env now m tasks hslot hm => ?_⟩
  obtain ⟨b, hhandle, hkeeps⟩ := Actor.handle_calm hinv.actor hslot now hm
  obtain ⟨a', htasks, hkeeps'⟩ := Actor.performAll_keeps hkeeps.1 tasks
  exact ⟨a', by rw [hhandle]; exact htasks, hkeeps'.1.tablesMatch⟩

/-- The flow of a query to a name server and its socket. -/
theorem System.flows_match_sockets_dnsRun :
    ∃ s, run System.step .init dnsRun = some s ∧ s.actor.TablesMatch := by
  have hsome : (run System.step .init dnsRun).isSome = true := by decide +kernel
  obtain ⟨s, hrun⟩ := Option.isSome_iff_exists.mp hsome
  exact ⟨s, hrun, (System.flows_match_sockets ⟨dnsRun, hrun⟩).1⟩

end Ruproxy.Wireguard
