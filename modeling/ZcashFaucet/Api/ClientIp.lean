/-
ZcashFaucet.Api.ClientIp — whose request is it? `clientIp.ts`.

X-Forwarded-For is what the client sent, with one entry appended by each
proxy on the way. The entries are counted from the right, after the empty
ones are gone, so what the client sent is never reached
(`clientIp_forwardedFor`): unless a proxy of ours appends a blank, which is
an empty entry too (`blank_peer_shifts`).
-/
import ZcashFaucet.Lib.JsTrim

namespace ZcashFaucet.Api

open Lib

def comma : UInt16 := 0x2C

/-- The entries of a header that are not empty. -/
def hopsOf (xff : JsString) : List JsString := ((xff.splitOn comma).map trim).filter JsString.truthy

/-- `clientIp`, of the header `x-forwarded-for`. -/
def clientIp (trustedProxyCount : Nat) (xff : Option JsString) : Option JsString :=
  if trustedProxyCount > 0 then
    match orNull xff with
    | some xff =>
        let hops := hopsOf xff
        if trustedProxyCount ≤ hops.length then orNull hops[hops.length - trustedProxyCount]? else none
    | none => none
  else none

/-! ## What proxies do to the header -/

/-- One entry as a proxy appends it: the peer it saw, and the blanks
between it and the comma. -/
structure AppendedHop where
  gap : JsString
  peer : JsString
  gap_blank : IsBlank gap
  peer_nonempty : peer ≠ []
  peer_comma : comma ∉ peer

def AppendedHop.append (xff : Option JsString) (hop : AppendedHop) : Option JsString :=
  match xff with
  | none => some hop.peer
  | some text => some (text ++ comma :: (hop.gap ++ hop.peer))

/-- The header at the app: what the client sent, past the proxies, the
outermost of which is first. -/
def forwardedFor (client : Option JsString) (hops : List AppendedHop) : Option JsString :=
  hops.foldl AppendedHop.append client

theorem not_mem_of_blank {s : JsString} (h : IsBlank s) : comma ∉ s := fun hmem =>
  absurd (h comma hmem) (by decide)

theorem truthy_iff {s : JsString} : s.truthy = true ↔ s ≠ [] := by
  cases s <;> simp [JsString.truthy]

/-- The text of a header that may be missing. -/
def hopsBefore (client : Option JsString) : List JsString := client.elim [] hopsOf

/-- One more proxy is one more entry. -/
theorem hopsOf_append (client : Option JsString) {hop : AppendedHop} (h : ¬ IsBlank hop.peer) :
    (hop.append client).map hopsOf = some (hopsBefore client ++ [trim hop.peer]) := by
  have hpeer : (trim hop.peer).truthy = true := truthy_iff.mpr fun hnil => h (trim_eq_nil_iff.mp hnil)
  cases client with
  | none => simp [AppendedHop.append, hopsBefore, hopsOf, List.splitOn_eq_singleton hop.peer_comma, hpeer]
  | some text =>
    have hentry : comma ∉ hop.gap ++ hop.peer := fun hmem =>
      (List.mem_append.mp hmem).elim (not_mem_of_blank hop.gap_blank) hop.peer_comma
    have htrim : trim (hop.gap ++ hop.peer) = trim hop.peer := by
      simpa using trim_surround hop.gap_blank isBlank_nil hop.peer
    simp only [AppendedHop.append, hopsBefore, Option.map_some, Option.elim_some, hopsOf,
      List.splitOn_append_cons_self, List.splitOn_eq_singleton hentry, List.map_append, List.map_cons,
      List.map_nil, List.filter_append, htrim]
    rw [List.filter_cons_of_pos hpeer, List.filter_nil]

/-- The entries of the proxies come last, in order. -/
theorem hopsBefore_forwardedFor (client : Option JsString) {hops : List AppendedHop}
    (h : ∀ hop ∈ hops, ¬ IsBlank hop.peer) :
    hopsBefore (forwardedFor client hops) = hopsBefore client ++ hops.map fun hop => trim hop.peer := by
  induction hops generalizing client with
  | nil => simp [forwardedFor]
  | cons hop hops ih =>
    have hone := hopsOf_append client (h hop List.mem_cons_self)
    have hbefore : hopsBefore (hop.append client) = hopsBefore client ++ [trim hop.peer] := by
      cases happend : hop.append client with
      | none => simp [happend] at hone
      | some text =>
        rw [happend, Option.map_some, Option.some.injEq] at hone
        exact hone
    rw [forwardedFor, List.foldl_cons, ← forwardedFor, ih _ fun p hp => h p (List.mem_cons_of_mem hop hp), hbefore]
    simp

/-- Any of them makes the header one that is there. -/
theorem orNull_forwardedFor (client : Option JsString) (hop : AppendedHop) (hops : List AppendedHop) :
    ∃ c text, forwardedFor client (hop :: hops) = some (c :: text) := by
  induction hops generalizing client hop with
  | nil =>
    cases client with
    | none =>
      cases hpeer : hop.peer with
      | nil => exact absurd hpeer hop.peer_nonempty
      | cons c text => exact ⟨c, text, congrArg some hpeer⟩
    | some text =>
      cases text with
      | nil => exact ⟨comma, hop.gap ++ hop.peer, rfl⟩
      | cons c text => exact ⟨c, text ++ comma :: (hop.gap ++ hop.peer), rfl⟩
  | cons next hops ih => exact ih (hop.append client) next

/-- **What the client sends is not read.** Past the proxies we trust, the
answer is the peer that the outermost of them saw. -/
theorem clientIp_forwardedFor (outermost : AppendedHop) (inner : List AppendedHop)
    (h : ∀ hop ∈ outermost :: inner, ¬ IsBlank hop.peer) :
    (∀ client, clientIp (inner.length + 1) (forwardedFor client (outermost :: inner)) =
      some (trim outermost.peer)) ∧
    ∀ client client', clientIp (inner.length + 1) (forwardedFor client (outermost :: inner)) =
      clientIp (inner.length + 1) (forwardedFor client' (outermost :: inner)) := by
  have hpeer : ∀ client, clientIp (inner.length + 1) (forwardedFor client (outermost :: inner)) =
      some (trim outermost.peer) := by
    intro client
    have hhops := hopsBefore_forwardedFor client h
    obtain ⟨c, text, htext⟩ := orNull_forwardedFor client outermost inner
    rw [htext] at hhops ⊢
    have hentries : hopsOf (c :: text) =
        hopsBefore client ++ (outermost :: inner).map fun hop => trim hop.peer := hhops
    have hlength : (hopsOf (c :: text)).length = (hopsBefore client).length + (inner.length + 1) := by
      rw [hentries]
      simp
    rw [clientIp, if_pos (Nat.succ_pos _)]
    simp only [orNull_some_cons]
    rw [if_pos (by omega), hlength, Nat.add_sub_cancel, hentries, List.getElem?_append_right (le_refl _),
      Nat.sub_self, List.map_cons, List.getElem?_cons_zero]
    cases htrim : trim outermost.peer with
    | nil => exact absurd (trim_eq_nil_iff.mp htrim) (h outermost List.mem_cons_self)
    | cons d rest => rfl
  exact ⟨hpeer, fun client client' => (hpeer client).trans (hpeer client').symm⟩

/-- A proxy that appends an address. -/
def appendsAddress : AppendedHop where
  gap := js " "
  peer := js "203.0.113.7"
  gap_blank := by decide
  peer_nonempty := by decide
  peer_comma := by decide

theorem clientIp_forwardedFor_two :
    clientIp 2 (forwardedFor (some (js "1.1.1.1, ,,8.8.8.8 ,")) [appendsAddress, appendsAddress]) =
      some (js "203.0.113.7") := by
  have hpeer : ¬ IsBlank appendsAddress.peer := by decide
  exact (clientIp_forwardedFor appendsAddress [appendsAddress]
    (List.forall_mem_cons.mpr ⟨hpeer, List.forall_mem_cons.mpr ⟨hpeer, by simp⟩⟩)).1 _

/-- One that appends a blank. -/
def appendsBlank : AppendedHop where
  gap := js " "
  peer := js " "
  gap_blank := by decide
  peer_nonempty := by decide
  peer_comma := by decide

/-- Its entry is not counted, and the client's own is read. -/
theorem blank_peer_shifts :
    clientIp 2 (forwardedFor (some (js "6.6.6.6")) [appendsAddress, appendsBlank]) = some (js "6.6.6.6") ∧
      clientIp 2 (forwardedFor none [appendsAddress, appendsBlank]) = none := by decide

end ZcashFaucet.Api
