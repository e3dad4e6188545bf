/-
# No client is passed over

`recvReq` moves the head of the list on by one in each turn, whichever client it found. In as
many turns as there are clients the head therefore stands at every client once, and a client at
the head is found if it can be read.
-/

import Datamime.Harness.Clients

namespace Datamime.Harness

open Datamime.Math

namespace NetworkedServer

variable {st next final : NetworkedServer} {readSet : ℕ → Bool} {fd : ℕ}

/-- A call of `recvReq` as a step of a run. It stops at an exit of the process, or where it
waits in `select`. -/
def receive (st : NetworkedServer) (selects : List (ℕ → Bool)) :
    Except (Option Exit) NetworkedServer :=
  match st.recvReq selects with
  | some (.ok next) => .ok next
  | some (.error ends) => .error (some ends)
  | none => .error none

theorem recvReq_of_receive {selects : List (ℕ → Bool)} (received : st.receive selects = .ok next) :
    st.recvReq selects = some (.ok next) := by
  rw [receive] at received
  split at received
  · rename_i isNext
    cases received
    exact isNext
  · cases received
  · cases received

/-! ## The head -/

theorem recvClientHead_of_turn (turned : st.turn readSet = .ok next) :
    next.recvClientHead = (st.recvClientHead + 1) % st.clientFds.length := by
  cases isChosen : st.chosen readSet with
  | none =>
      rw [turn, isChosen] at turned
      split at turned <;> cases turned
  | some fd =>
      rw [turn_of_chosen isChosen] at turned
      split at turned
      · cases turned
        rfl
      · cases turned
        rfl
      · cases turned

/-- A turn that delivers something delivers it from the client that it found. -/
theorem delivered_of_chosen {delivery : Delivery} (isChosen : st.chosen readSet = some fd)
    (turned : st.turn readSet = .ok next)
    (delivered : next.delivered = st.delivered ++ [delivery]) :
    delivery.fd = fd := by
  rw [turn_of_chosen isChosen] at turned
  split at turned
  · cases turned
    rw [deliver] at delivered
    rw [← List.singleton_inj.mp (List.append_cancel_left delivered)]
  · cases turned
    exact absurd (List.self_eq_append_right.mp delivered) (List.cons_ne_nil _ _)
  · cases turned

/-- The client at the head is found if it can be read. -/
theorem chosen_of_head
    (atHead : st.clientFds[st.recvClientHead % st.clientFds.length]? = some fd)
    (isReady : readSet fd = true) : st.chosen readSet = some fd := by
  have connected : st.clientFds ≠ [] := List.ne_nil_of_mem (List.mem_of_getElem? atHead)
  have scans : st.scanned.head? = some fd := by
    rw [scanned_eq_rotate, ← List.rotate_mod, List.head?_rotate, atHead]
    exact Nat.mod_lt _ (List.length_pos_of_ne_nil connected)
  rcases List.head?_eq_some_iff.mp scans with ⟨others, isScanned⟩
  rw [chosen, isScanned, List.find?_cons_of_pos isReady]

/-! ## A call -/

theorem length_clientFds_le_of_turn (turned : st.turn readSet = .ok next) :
    next.clientFds.length ≤ st.clientFds.length := by
  rcases turn_cases turned with ⟨-, fd, -, others⟩ | ⟨_, _, _, _, same⟩
  · rw [others]
    exact List.length_erase_le
  · rw [same]

/-- A call delivers one request, and adds no client. -/
theorem exists_delivery_of_recvReq {selects : List (ℕ → Bool)}
    (returned : st.recvReq selects = some (.ok next)) :
    (∃ delivery, next.delivered = st.delivered ++ [delivery]) ∧
      next.clientFds.length ≤ st.clientFds.length := by
  induction selects generalizing st with
  | nil =>
      rw [recvReq] at returned
      split at returned <;> cases returned
  | cons readSet later ih =>
      cases turned : st.turn readSet with
      | error ends =>
          rw [recvReq, turned] at returned
          cases returned
      | ok middle =>
          rcases turn_cases turned with ⟨same, -⟩ | ⟨_, delivery, -, delivered, -⟩
          · rw [recvReq_cons_of_same later turned same] at returned
            rcases ih returned with ⟨⟨delivery, delivered⟩, fewer⟩
            rw [same] at delivered
            exact ⟨⟨delivery, delivered⟩, fewer.trans (length_clientFds_le_of_turn turned)⟩
          · rw [recvReq_cons_of_delivered later turned delivered] at returned
            cases returned
            exact ⟨⟨delivery, delivered⟩, length_clientFds_le_of_turn turned⟩

/-- A call during which no client leaves is one turn. -/
theorem turn_of_recvReq {selects : List (ℕ → Bool)}
    (returned : st.recvReq selects = some (.ok next))
    (stay : next.clientFds.length = st.clientFds.length) :
    ∃ readSet, selects.head? = some readSet ∧ st.turn readSet = .ok next ∧
      next.clientFds = st.clientFds := by
  cases selects with
  | nil =>
      rw [recvReq] at returned
      split at returned <;> cases returned
  | cons readSet later =>
      cases turned : st.turn readSet with
      | error ends =>
          rw [recvReq, turned] at returned
          cases returned
      | ok middle =>
          rcases turn_cases turned with ⟨same, fd, isClient, others⟩ | ⟨_, _, _, delivered, clients⟩
          · rw [recvReq_cons_of_same later turned same] at returned
            have fewer := (exists_delivery_of_recvReq returned).2
            rw [others, List.length_erase_of_mem isClient, stay] at fewer
            have some_client := List.length_pos_of_mem isClient
            omega
          · rw [recvReq_cons_of_delivered later turned delivered] at returned
            cases returned
            exact ⟨readSet, rfl, turned, clients⟩

theorem recvClientHead_le_of_recvReq {selects : List (ℕ → Bool)} {bound : ℕ}
    (returned : st.recvReq selects = some (.ok next)) (few : st.clientFds.length ≤ bound) :
    next.recvClientHead ≤ bound := by
  induction selects generalizing st with
  | nil =>
      rw [recvReq] at returned
      split at returned <;> cases returned
  | cons readSet later ih =>
      cases turned : st.turn readSet with
      | error ends =>
          rw [recvReq, turned] at returned
          cases returned
      | ok middle =>
          rcases turn_cases turned with ⟨same, -⟩ | ⟨_, _, isChosen, delivered, -⟩
          · rw [recvReq_cons_of_same later turned same] at returned
            exact ih returned ((length_clientFds_le_of_turn turned).trans few)
          · rw [recvReq_cons_of_delivered later turned delivered] at returned
            cases returned
            have some_client := List.length_pos_of_mem (mem_of_chosen isChosen).1
            rw [recvClientHead_of_turn turned]
            exact (Nat.mod_lt _ some_client).le.trans few

/-- The head never stands beyond the number of clients that were accepted. Its sums with the
index of a client are therefore far from the end of its machine word. -/
theorem recvClientHead_le_of_accepted (conns : Connections) (calls : List (List (ℕ → Bool))) :
    AlongRun receive conns.accepted calls
      fun _ st => st.recvClientHead ≤ conns.clientFds.length := by
  have kept : AlongRun receive conns.accepted calls fun _ st =>
      st.recvClientHead ≤ conns.clientFds.length ∧
        st.clientFds.length ≤ conns.clientFds.length := by
    refine alongRun_of_preserved calls ⟨Nat.zero_le _, le_refl _⟩ ?_
    intro _ st selects next ⟨_, few⟩ received
    have returned := recvReq_of_receive received
    exact ⟨recvClientHead_le_of_recvReq returned few,
      (exists_delivery_of_recvReq returned).2.trans few⟩
  exact fun early isPrefix st reached => (kept early isPrefix st reached).1

/-! ## A window of calls -/

theorem isPrefix_delivered_of_run {calls : List (List (ℕ → Bool))}
    (received : run receive st calls = .ok final) :
    st.delivered <+: final.delivered ∧ final.clientFds.length ≤ st.clientFds.length := by
  have kept : ∀ (state : NetworkedServer) selects next,
      st.delivered <+: state.delivered ∧ state.clientFds.length ≤ st.clientFds.length →
      state.receive selects = .ok next →
      st.delivered <+: next.delivered ∧ next.clientFds.length ≤ st.clientFds.length := by
    intro state selects next ⟨isPrefix, fewer⟩ stepped
    rcases exists_delivery_of_recvReq (recvReq_of_receive stepped) with
      ⟨⟨delivery, delivered⟩, less⟩
    rw [delivered]
    exact ⟨isPrefix.trans (List.prefix_append _ _), less.trans fewer⟩
  exact run_invariant kept ⟨List.prefix_refl _, le_refl _⟩ received

/-- While no client leaves, each call moves the head on by one. -/
theorem recvClientHead_of_run {calls : List (List (ℕ → Bool))}
    (received : run receive st calls = .ok final)
    (stay : final.clientFds.length = st.clientFds.length) :
    final.clientFds = st.clientFds ∧
      final.recvClientHead % st.clientFds.length =
        (st.recvClientHead + calls.length) % st.clientFds.length := by
  induction calls using List.reverseRecOn generalizing final with
  | nil =>
      cases received
      exact ⟨rfl, rfl⟩
  | append_singleton calls selects ih =>
      rcases run_concat_eq_ok_iff.mp received with ⟨middle, before, stepped⟩
      have isCall := recvReq_of_receive stepped
      have fewer := (exists_delivery_of_recvReq isCall).2
      have stayed : middle.clientFds.length = st.clientFds.length :=
        le_antisymm (isPrefix_delivered_of_run before).2 (stay ▸ fewer)
      rcases ih before stayed with ⟨sameClients, isHead⟩
      rcases turn_of_recvReq isCall (stay.trans stayed.symm) with ⟨readSet, -, turned, same⟩
      refine ⟨same.trans sameClients, ?_⟩
      rw [recvClientHead_of_turn turned, sameClients, Nat.mod_mod, Nat.add_mod, isHead,
        ← Nat.add_mod, List.length_append, List.length_singleton, add_assoc]

end NetworkedServer

/-- Among as many numbers in a row as the modulus, one has a given remainder. -/
theorem exists_add_mod_eq (start : ℕ) {i n : ℕ} (below : i < n) :
    ∃ k < n, (start + k) % n = i := by
  have remainder : start % n < n := Nat.mod_lt start (Nat.zero_lt_of_lt below)
  by_cases ahead : start % n ≤ i
  · refine ⟨i - start % n, by omega, ?_⟩
    rw [← Nat.mod_add_mod, Nat.add_sub_cancel' ahead, Nat.mod_eq_of_lt below]
  · refine ⟨i + n - start % n, by omega, ?_⟩
    rw [← Nat.mod_add_mod, Nat.add_sub_cancel' (by omega), Nat.add_mod_right,
      Nat.mod_eq_of_lt below]

open NetworkedServer in
/-- Wherever the head stands, in as many calls as there are clients, during which none of them
leaves, a request is received from every client that could be read at each selection. -/
theorem received_from_ready (st final : NetworkedServer) (calls : List (List (ℕ → Bool)))
    (received : run receive st calls = .ok final)
    (window : calls.length = st.clientFds.length) (stay : final.clientFds = st.clientFds)
    (fd : ℕ) (isClient : fd ∈ st.clientFds)
    (isReady : ∀ selects ∈ calls, ∀ readSet, selects.head? = some readSet → readSet fd = true) :
    ∃ delivery ∈ final.delivered.drop st.delivered.length, delivery.fd = fd := by
  rcases List.getElem?_of_mem isClient with ⟨i, atIndex⟩
  have below : i < st.clientFds.length := (List.getElem?_eq_some_iff.mp atIndex).1
  rcases exists_add_mod_eq st.recvClientHead below with ⟨k, within, isIndex⟩
  -- The call at which the head stands at the client.
  have isCall : k < calls.length := window ▸ within
  have isSplit : calls = calls.take k ++ calls[k] :: calls.drop (k + 1) := by
    rw [← List.drop_eq_getElem_cons isCall, List.take_append_drop]
  rw [isSplit] at received
  rcases run_append_eq_ok_iff.mp received with ⟨before, early, onward⟩
  rcases run_cons_eq_ok_iff.mp onward with ⟨after, stepped, late⟩
  have isReceived := recvReq_of_receive stepped
  rcases isPrefix_delivered_of_run early with ⟨earlyDelivered, fewer⟩
  rcases isPrefix_delivered_of_run late with ⟨lateDelivered, fewest⟩
  have least := (exists_delivery_of_recvReq isReceived).2
  rw [stay] at fewest
  rcases recvClientHead_of_run early (by omega) with ⟨sameClients, isHead⟩
  rw [List.length_take_of_le isCall.le, isIndex] at isHead
  rcases turn_of_recvReq isReceived (by omega) with ⟨readSet, isFirst, turned, -⟩
  have isChosen : before.chosen readSet = some fd := by
    apply chosen_of_head
    · rw [sameClients, isHead, atIndex]
    · exact isReady _ (List.getElem_mem isCall) readSet isFirst
  rcases (exists_delivery_of_recvReq isReceived).1 with ⟨delivery, delivered⟩
  refine ⟨delivery, ?_, delivered_of_chosen isChosen turned delivered⟩
  rcases earlyDelivered with ⟨others, isEarly⟩
  rcases lateDelivered with ⟨later, isLate⟩
  rw [← isLate, delivered, ← isEarly, List.append_assoc, List.append_assoc, List.drop_left]
  simp

/-- Two clients with two requests each. All their bytes are queued. -/
def twoClients : Connections where
  clientFds := [7, 8]
  distinct := by decide
  client := fun fd => { oneByte.client fd with
    requests := [⟨5, 0, [3], by decide⟩, ⟨6, 0, [2], by decide⟩] }
  chunks := oneByte.chunks

/-- The head is left from a longer list of clients, and both clients can be read. -/
def headLeft : NetworkedServer := { twoClients.accepted with recvClientHead := 4 }

theorem headLeft_received :
    ∃ final, run NetworkedServer.receive headLeft [[fun _ => true], [fun _ => true]] = .ok final ∧
      ∃ delivery ∈ final.delivered.drop headLeft.delivered.length, delivery.fd = 8 := by
  have stays : (run NetworkedServer.receive headLeft
      [[fun _ => true], [fun _ => true]]).toOption.map (·.clientFds) = some [7, 8] := by
    decide +kernel
  cases received : run NetworkedServer.receive headLeft [[fun _ => true], [fun _ => true]] with
  | error ends =>
      rw [received] at stays
      cases stays
  | ok final =>
      rw [received] at stays
      refine ⟨final, rfl, ?_⟩
      apply received_from_ready headLeft final _ received rfl (Option.some.inj stays) 8 (by decide)
      simp

end Datamime.Harness
