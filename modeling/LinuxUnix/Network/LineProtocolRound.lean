import LinuxUnix.Foundation.Keyed
import LinuxUnix.Network.LineProtocol

/-! # What a round of the select server prints

A round in which `recv` delivers texts prints the text of each ready client once, and the
clients whose text is the line `quit` leave the set given to `select`
(`LinuxUnix.LineProtocol.exists_exchange`).
-/

namespace LinuxUnix.LineProtocol

open CMemory MultiServer

variable {input : Round} {text : ℕ → List Byte}

/-- What serving clients with these descriptors does, if `text` gives what they have sent. -/
structure Hears (text : ℕ → List Byte) (socks : List ℕ) (before after : Progress) : Prop where
  recvs : recvs after.calls = recvs before.calls ++ socks
  prints : prints after.calls = prints before.calls ++ socks.map text
  registered : ∀ fd, fd ∈ after.state.gesamtSock ↔
    fd ∈ before.state.gesamtSock ∧ ¬ (fd ∈ socks ∧ text fd = quitLine)
  listening : after.state.sock1 = before.state.sock1

theorem Hears.nil (progress : Progress) : Hears text [] progress progress where
  recvs := (List.append_nil _).symm
  prints := (List.append_nil _).symm
  registered _ := ⟨fun member => ⟨member, fun heard => List.not_mem_nil heard.1⟩, And.left⟩
  listening := rfl

theorem Hears.trans {socks more : List ℕ} {before middle after : Progress}
    (first : Hears text socks before middle) (second : Hears text more middle after) :
    Hears text (socks ++ more) before after where
  recvs := by rw [second.recvs, first.recvs, List.append_assoc]
  prints := by rw [second.prints, first.prints, List.map_append, List.append_assoc]
  registered fd := by
    rw [second.registered, first.registered, List.mem_append, and_assoc, ← not_or, ← or_and_right]
  listening := second.listening.trans first.listening

/-- A client whose message is a text is printed, and leaves the tables if it is `quit`. -/
theorem exists_hears {i : Fin fdSetSize} {sock3 : ℕ}
    (received : input.received sock3 = some (text sock3)) (clean : 0 ∉ text sock3)
    (before : Progress) :
    ∃ after, serveClient input i sock3 before = .ok after ∧ Hears text [sock3] before after := by
  have printed : cstr (overwrite before.state.buffer 0 (text sock3 ++ [0])) = text sock3 := by
    rw [cstr_overwrite, cstr_eq_self clean]
  by_cases quit : text sock3 = quitLine
  · refine ⟨_, by simp only [serveClient, tcpRecv, received, bind, Except.bind, printed, pure,
      Except.pure]; exact if_pos quit, ?_, ?_, ?_, ?_⟩
    · simp only [MultiServer.recvs, List.filterMap_append, List.append_assoc]
      rfl
    · simp only [LineProtocol.prints, List.filterMap_append, List.append_assoc]
      rfl
    · intro fd
      change fd ∈ before.state.gesamtSock.erase sock3 ↔ _
      rw [Finset.mem_erase, List.mem_singleton, and_comm]
      apply and_congr_right
      intro _
      refine ⟨fun different same => different same.1, fun others same => others ⟨same, ?_⟩⟩
      rw [same, quit]
    · rfl
  · refine ⟨_, by simp only [serveClient, tcpRecv, received, bind, Except.bind, printed, pure,
      Except.pure]; exact if_neg quit, ?_, ?_, ?_, ?_⟩
    · simp only [MultiServer.recvs, List.filterMap_append]
      rfl
    · simp only [LineProtocol.prints, List.filterMap_append]
      rfl
    · intro fd
      rw [List.mem_singleton]
      refine ⟨fun member => ⟨member, ?_⟩, And.left⟩
      intro same
      exact quit (same.1 ▸ same.2)
    · rfl

theorem serveAll_hears {clients : List (Fin fdSetSize × ℕ)}
    (delivers : ∀ client ∈ clients,
      input.received client.2 = some (text client.2) ∧ 0 ∉ text client.2) :
    ∀ before : Progress, ∃ after, serveAll input clients before = .ok after ∧
      Hears text (clients.map Prod.snd) before after := by
  induction clients with
  | nil => exact fun before => ⟨before, rfl, .nil before⟩
  | cons client clients ih =>
      intro before
      obtain ⟨received, clean⟩ := delivers client List.mem_cons_self
      obtain ⟨middle, served, first⟩ := exists_hears (i := client.1) received clean before
      obtain ⟨after, rest, others⟩ :=
        ih (fun other member => delivers other (List.mem_cons_of_mem _ member)) middle
      refine ⟨after, ?_, first.trans others⟩
      rw [serveAll, served]
      exact rest

/-- What a round does, if `text` gives what has been sent on each descriptor. -/
structure Exchange (text : ℕ → List Byte) (before : MultiServer.State) (input : Round)
    (after : Progress) : Prop where
  returned : round before input = .ok after
  table : Table after.state
  listening : after.state.sock1 = before.sock1
  recvs : ∀ fd, fd ∈ recvs after.calls ↔ fd ∈ input.leseSock ∧ fd ≠ before.sock1
  texts : ∀ fd, texts after.calls fd =
    if fd ∈ input.leseSock ∧ fd ≠ before.sock1 then [text fd] else []
  registered : ∀ fd, fd ∈ after.state.gesamtSock ↔
    (fd ∈ before.gesamtSock ∨ (before.sock1 ∈ input.leseSock ∧ input.accepted = some fd)) ∧
      ¬ ((fd ∈ input.leseSock ∧ fd ≠ before.sock1) ∧ text fd = quitLine)

/-- The texts of distinct descriptors. -/
theorem texts_of_nodup {calls : List Call} {socks : List ℕ} (nodup : socks.Nodup)
    (recvs_eq : recvs calls = socks) (prints_eq : prints calls = socks.map text) (fd : ℕ) :
    texts calls fd = if fd ∈ socks then [text fd] else [] := by
  have pairs : heard calls = socks.map fun sock => (sock, text sock) := by
    rw [heard, recvs_eq, prints_eq]
    exact List.map_prod_left_eq_zip.symm
  rw [texts, pairs, Keyed.select_of_nodup nodup (fun _ => rfl)]
  split
  · rfl
  · rfl

/-- What a round does before it serves its clients. -/
theorem quiet_of_accepts {state : MultiServer.State} {before : Progress}
    (accepts : Accepts state input before) : recvs before.calls = [] ∧ prints before.calls = [] ∧
      before.state.sock1 = state.sock1 ∧ ∀ fd, fd ∈ before.state.gesamtSock ↔
        fd ∈ state.gesamtSock ∨ (state.sock1 ∈ input.leseSock ∧ input.accepted = some fd) := by
  rw [Accepts] at accepts
  split at accepts
  · rename_i ready
    obtain ⟨calls, i, sock2, accepted, _, entered⟩ := accepts
    rw [calls, entered]
    refine ⟨rfl, rfl, rfl, fun fd => ?_⟩
    change fd ∈ insert sock2 state.gesamtSock ↔ _
    rw [Finset.mem_insert, accepted, or_comm]
    apply or_congr_right
    exact ⟨fun same => ⟨ready, congrArg some same.symm⟩,
      fun taken => (Option.some.inj taken.2).symm⟩
  · rename_i idle
    rw [accepts.1, accepts.2]
    refine ⟨rfl, rfl, rfl, fun fd => ⟨.inl, fun member => ?_⟩⟩
    exact member.resolve_right fun new => idle new.1

/-- A round from a table in agreement in which the clients have sent texts. -/
theorem exists_exchange {state : MultiServer.State} (table : Table state)
    (selects : Selects state input) (fresh : AcceptsFresh state input)
    (delivers : ∀ fd ∈ input.leseSock, fd ≠ state.sock1 →
      input.received fd = some (text fd) ∧ 0 ∉ text fd) :
    ∃ after, Exchange text state input after := by
  obtain ⟨before, scans⟩ := exists_scans table selects fresh
  obtain ⟨called, printed, listening, registered⟩ := quiet_of_accepts scans.accepts
  have delivered : ∀ client ∈ served input before,
      input.received client.2 = some (text client.2) ∧ 0 ∉ text client.2 := by
    intro client member
    obtain ⟨ready, other⟩ := scans.mem_served member
    exact delivers client.2 ready other
  obtain ⟨after, served_, hears⟩ := serveAll_hears delivered before
  have returned : round state input = .ok after := scans.serves.trans served_
  have socks : (served input before).map Prod.snd =
      readySocks input before.state.clientSock (slotsUpTo before.state.max) :=
    map_snd_readyClients _ _ _
  rw [socks] at hears
  have recvs_eq := hears.recvs
  have prints_eq := hears.prints
  rw [called, List.nil_append] at recvs_eq
  rw [printed, List.nil_append] at prints_eq
  refine ⟨after, returned, table.round fresh returned, hears.listening.trans listening, ?_, ?_, ?_⟩
  · intro fd
    rw [recvs_eq, scans.members]
  · intro fd
    rw [texts_of_nodup scans.nodup recvs_eq prints_eq]
    simp only [scans.members]
  · intro fd
    rw [hears.registered, registered, scans.members]

end LinuxUnix.LineProtocol
