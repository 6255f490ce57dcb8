import MacSftp.Hosts.Pinning
import MacSftp.Hosts.ServerKeys

namespace MacSftp

open Lib

namespace KeySystem

variable {κ : Type} [DecidableEq κ] (format : HostFormat κ) (fingerprint algorithm : κ → String) (appPath : LocalPath)

/-- What a handler does without the registry and without the store's being written. -/
inductive Restages (s : KeySystem κ) (requestId : Nat) (handler : ClientHandler κ) :
    KeyCheckStage → List (KeyOutput κ) → Prop
  | matched (stage : handler.stage = .called)
      (result : s.store.check format handler.host handler.port handler.serverKey = .matched) :
      Restages s requestId handler (.returning true) [.checked requestId .matched]
  | mismatched (stage : handler.stage = .called)
      (result : s.store.check format handler.host handler.port handler.serverKey = .mismatch) :
      Restages s requestId handler .mismatched [.checked requestId .mismatch]
  | unknown (stage : handler.stage = .called)
      (result : s.store.check format handler.host handler.port handler.serverKey = .notFound) :
      Restages s requestId handler .unknown [.checked requestId .notFound]
  | prompted (stage : handler.stage = .registered) (prompt : HostKeyPrompt) (own : prompt.requestId = requestId)
      (shown : prompt.fingerprint = fingerprint handler.serverKey.keyData) :
      Restages s requestId handler .prompting [.prompted prompt]
  | trusted (stage : handler.stage = .prompting) (received : handler.received = some .trustAndSave) :
      Restages s requestId handler .trusted []
  | elapsed (stage : handler.stage = .prompting) : Restages s requestId handler .elapsed []
  | refused : Restages s requestId handler (.returning false) []
  | finished (answer : Bool) : Restages s requestId handler .over [.returned requestId answer]
  | aborted : Restages s requestId handler .over []

/-- What a step can do. -/
inductive KeyMove (s : KeySystem κ) : KeyOp κ → KeySystem κ → List (KeyOutput κ) → Prop
  | idle (op : KeyOp κ) : KeyMove s op s []
  | called (host : List Char) (port : UInt16) (scope : RemoteEventScope) (serverKey : PublicKey κ) :
      KeyMove s (.call host port scope serverKey) (s.call host port scope serverKey) []
  | reserved : KeyMove s .reserve { s with nextTrustId := s.nextTrustId + 1 } []
  | rewritten (disk : Disk) : KeyMove s (.rewrite disk) { s with disk := disk } []
  | decided (op : KeyOp κ) (chosen : Nat → TrustRegistryEntry → Bool) (decision : TrustDecision)
      (asked : decision = .trustAndSave → ∀ requestId entry, chosen requestId entry = true → op = .acceptHostKey requestId) :
      KeyMove s op (s.decide chosen decision).1 (s.decide chosen decision).2
  | restaged (op : KeyOp κ) (requestId : Nat) (handler : ClientHandler κ) (known : s.handlers requestId = some handler)
      (stage : KeyCheckStage) (rejection : Option HostKeyRejection) (outputs : List (KeyOutput κ))
      (restages : Restages format fingerprint s requestId handler stage outputs) :
      KeyMove s op (s.withHandler requestId { handler with stage := stage, rejection := rejection }) outputs
  | registered (op : KeyOp κ) (requestId : Nat) (handler : ClientHandler κ) (known : s.handlers requestId = some handler)
      (stage : handler.stage = .unknown) : KeyMove s op (s.register requestId handler) []
  | cleaned (op : KeyOp κ) (requestId : Nat) (handler : ClientHandler κ) (known : s.handlers requestId = some handler)
      (stage : handler.stage = .elapsed) : KeyMove s op (s.cleanUp requestId handler).1 (s.cleanUp requestId handler).2
  | saved (op : KeyOp κ) (requestId : Nat) (handler : ClientHandler κ) (known : s.handlers requestId = some handler)
      (stage : handler.stage = .trusted) (faults : WriteFaults) :
      KeyMove s op (s.save format appPath requestId handler faults).1 (s.save format appPath requestId handler faults).2

variable {format fingerprint algorithm appPath}

theorem check_move {s : KeySystem κ} {requestId : Nat} {handler : ClientHandler κ} (op : KeyOp κ)
    (known : s.handlers requestId = some handler) (stage : handler.stage = .called) :
    KeyMove format fingerprint appPath s op (s.check format requestId handler).1 (s.check format requestId handler).2 := by
  unfold check
  cases result : s.store.check format handler.host handler.port handler.serverKey with
  | matched => exact .restaged op requestId handler known _ handler.rejection _ (.matched stage result)
  | notFound => exact .restaged op requestId handler known _ handler.rejection _ (.unknown stage result)
  | mismatch => exact .restaged op requestId handler known _ handler.rejection _ (.mismatched stage result)

theorem heed_move {s : KeySystem κ} {requestId : Nat} {handler : ClientHandler κ} {decision : TrustDecision} (op : KeyOp κ)
    (known : s.handlers requestId = some handler) (stage : handler.stage = .prompting)
    (received : handler.received = some decision) :
    KeyMove format fingerprint appPath s op (s.heed requestId handler decision) [] := by
  unfold heed
  split_ifs with yes
  · subst yes
    exact .restaged op requestId handler known _ handler.rejection _ (.trusted stage received)
  · exact .restaged op requestId handler known _ _ _ .refused

theorem advance_move {s : KeySystem κ} {requestId : Nat} {handler : ClientHandler κ} (op : KeyOp κ)
    (known : s.handlers requestId = some handler) :
    KeyMove format fingerprint appPath s op (s.advance format fingerprint algorithm appPath requestId handler op).1
      (s.advance format fingerprint algorithm appPath requestId handler op).2 := by
  unfold advance
  split
  case h_1 stage => exact check_move _ known stage
  case h_2 stage => exact .restaged _ requestId handler known _ _ _ .refused
  case h_3 stage => exact .registered _ requestId handler known stage
  case h_4 stage => exact .restaged _ requestId handler known _ handler.rejection _ (.prompted stage _ rfl rfl)
  case h_5 stage =>
    split
    · rename_i decision received
      exact heed_move _ known stage received
    · exact .idle _
  case h_6 stage =>
    split_ifs
    · exact .restaged _ requestId handler known _ handler.rejection _ (.elapsed stage)
    · exact .idle _
  case h_7 stage => exact .cleaned _ requestId handler known stage
  case h_8 faults stage => exact .saved _ requestId handler known stage faults
  case h_9 answer stage => exact .restaged _ requestId handler known _ handler.rejection _ (.finished answer)
  case h_10 => exact .restaged _ requestId handler known _ handler.rejection _ .aborted
  case h_11 => exact .restaged _ requestId handler known _ handler.rejection _ .aborted
  case h_12 => exact .restaged _ requestId handler known _ handler.rejection _ .aborted
  case h_13 => exact .idle _

theorem step_move (s : KeySystem κ) (op : KeyOp κ) :
    KeyMove format fingerprint appPath s op ((machine format fingerprint algorithm appPath).next s op)
      ((machine format fingerprint algorithm appPath).out s op) := by
  change KeyMove format fingerprint appPath s op (step format fingerprint algorithm appPath s op).1
    (step format fingerprint algorithm appPath s op).2
  unfold step
  split
  case h_1 => exact .called ..
  case h_2 => exact .reserved
  case h_3 requestId =>
    refine .decided _ _ _ fun _ other _ chosen => ?_
    rw [decide_eq_true_eq] at chosen
    rw [chosen]
  case h_4 => exact .decided _ _ _ fun yes => by cases yes
  case h_5 => exact .decided _ _ _ fun yes => by cases yes
  case h_6 => exact .decided _ _ _ fun yes => by cases yes
  case h_7 => exact .decided _ _ _ fun yes => by cases yes
  case h_8 => exact .rewritten _
  all_goals
    split
    · rename_i known
      exact advance_move _ known
    · exact .idle _

section Handlers

/-- A handler after a step, and what was said of it. -/
inductive HandlerAfter (format : HostFormat κ) (fingerprint : κ → String) (s : KeySystem κ) (op : KeyOp κ)
    (said : List (KeyOutput κ)) (requestId : Nat) : ClientHandler κ → Prop
  | called (host : List Char) (port : UInt16) (scope : RemoteEventScope) (serverKey : PublicKey κ)
      (new : requestId = s.nextTrustId) : HandlerAfter format fingerprint s op said requestId { host, port, scope, serverKey }
  | same (handler : ClientHandler κ) (known : s.handlers requestId = some handler) :
      HandlerAfter format fingerprint s op said requestId handler
  | heard (handler : ClientHandler κ) (known : s.handlers requestId = some handler) (listens : handler.listens = true)
      (decision : TrustDecision) (sent : .decided requestId decision ∈ said)
      (asked : decision = .trustAndSave → op = .acceptHostKey requestId) :
      HandlerAfter format fingerprint s op said requestId { handler with received := some decision }
  | restaged (handler : ClientHandler κ) (known : s.handlers requestId = some handler) (stage : KeyCheckStage)
      (rejection : Option HostKeyRejection) (restages : Restages format fingerprint s requestId handler stage said) :
      HandlerAfter format fingerprint s op said requestId { handler with stage := stage, rejection := rejection }
  | registered (handler : ClientHandler κ) (known : s.handlers requestId = some handler) (stage : handler.stage = .unknown) :
      HandlerAfter format fingerprint s op said requestId { handler with stage := .registered }
  | cleaned (handler : ClientHandler κ) (known : s.handlers requestId = some handler) (rejection : Option HostKeyRejection) :
      HandlerAfter format fingerprint s op said requestId { handler with stage := .returning false, rejection := rejection }
  | saved (handler : ClientHandler κ) (known : s.handlers requestId = some handler) (stage : handler.stage = .trusted) :
      HandlerAfter format fingerprint s op said requestId { handler with stage := .returning true }

variable {s s' : KeySystem κ} {op : KeyOp κ} {said : List (KeyOutput κ)} {requestId : Nat} {handler : ClientHandler κ}

omit [DecidableEq κ] in
theorem withHandler_handlers {changed : Nat} {moved : ClientHandler κ}
    (after : (s.withHandler changed moved).handlers requestId = some handler) :
    changed = requestId ∧ moved = handler ∨ s.handlers requestId = some handler := by
  change Function.update s.handlers changed (some moved) requestId = some handler at after
  by_cases same : requestId = changed
  · subst same
    rw [Function.update_self] at after
    exact .inl ⟨rfl, Option.some.inj after⟩
  · rw [Function.update_of_ne same] at after
    exact .inr after

omit [DecidableEq κ] in
theorem decide_handlers {chosen : Nat → TrustRegistryEntry → Bool} {decision : TrustDecision}
    (after : (s.decide chosen decision).1.handlers requestId = some handler) (old : requestId < s.nextTrustId) :
    s.handlers requestId = some handler ∨
      ∃ before entry, s.handlers requestId = some before ∧ before.listens = true ∧ chosen requestId entry = true ∧
        handler = { before with received := some decision } ∧ .decided requestId decision ∈ (s.decide chosen decision).2 := by
  obtain ⟨before, known, rfl⟩ := Option.map_eq_some_iff.mp after
  split_ifs with heard
  · rw [Bool.and_eq_true] at heard
    obtain ⟨entry, pending, picked⟩ := (Option.any_eq_true _ _).mp heard.1
    refine .inr ⟨before, entry, known, heard.2, picked, rfl, ?_⟩
    exact List.mem_map.mpr ⟨requestId, List.mem_filter.mpr ⟨List.mem_range.mpr old, heard.1⟩, rfl⟩
  · exact .inl known

theorem handler_after (move : KeyMove format fingerprint appPath s op s' said)
    (new : ∀ other, s.nextTrustId ≤ other → s.handlers other = none) (after : s'.handlers requestId = some handler) :
    HandlerAfter format fingerprint s op said requestId handler := by
  have old : ∀ before, s.handlers requestId = some before → requestId < s.nextTrustId := by
    intro before known
    by_contra beyond
    rw [new requestId (Nat.le_of_not_lt beyond)] at known
    cases known
  cases move with
  | idle => exact .same handler after
  | called host port scope serverKey =>
    rcases withHandler_handlers after with ⟨rfl, rfl⟩ | known
    · exact .called host port scope serverKey rfl
    · exact .same handler known
  | reserved => exact .same handler after
  | rewritten => exact .same handler after
  | decided _ chosen decision asked =>
    obtain ⟨before, known, -⟩ := Option.map_eq_some_iff.mp after
    rcases decide_handlers after (old before known) with known | ⟨before, entry, known, listens, picked, rfl, sent⟩
    · exact .same handler known
    · exact .heard before known listens decision sent fun yes => asked yes requestId entry picked
  | restaged _ changed before known stage rejection outputs restages =>
    rcases withHandler_handlers after with ⟨rfl, rfl⟩ | known
    · exact .restaged before known stage rejection restages
    · exact .same handler known
  | registered _ changed before known stage =>
    rcases withHandler_handlers after with ⟨rfl, rfl⟩ | known
    · exact .registered before known stage
    · exact .same handler known
  | cleaned _ changed before known stage =>
    obtain ⟨moved, there, -⟩ := Option.map_eq_some_iff.mp after
    have bound : requestId < s.nextTrustId := by
      rcases withHandler_handlers there with ⟨rfl, -⟩ | earlier
      · exact old before known
      · exact old moved earlier
    rcases decide_handlers after bound with there | ⟨heard, entry, there, listens, picked, -, -⟩
    · rcases withHandler_handlers there with ⟨rfl, rfl⟩ | known
      · exact .cleaned before known _
      · exact .same handler known
    · -- the request's own handler has stopped listening
      rw [decide_eq_true_eq] at picked
      subst picked
      rcases withHandler_handlers there with ⟨-, rfl⟩ | earlier
      · cases listens
      · rw [known] at earlier
        cases earlier
        simp [ClientHandler.listens, stage] at listens
  | saved _ changed before known stage faults =>
    rcases withHandler_handlers after with ⟨rfl, rfl⟩ | known
    · exact .saved before known stage
    · exact .same handler known

end Handlers

section Outputs

def decisionFor (requestId : Nat) : KeyOutput κ → Option TrustDecision
  | .decided other decision => if other = requestId then some decision else none
  | _ => none

def pinnedEntry : KeyOutput κ → Option (Entry κ)
  | .pinned _ entry => some entry
  | _ => none

variable {s s' : KeySystem κ} {op : KeyOp κ} {said : List (KeyOutput κ)} {requestId : Nat}

omit [DecidableEq κ] in
theorem withHandler_stays {changed : Nat} {moved : ClientHandler κ}
    (gone : (s.withHandler changed moved).handlers requestId = none) :
    s.handlers requestId = none := by
  change Function.update s.handlers changed (some moved) requestId = none at gone
  by_cases same : requestId = changed
  · subst same
    rw [Function.update_self] at gone
    cases gone
  · rwa [Function.update_of_ne same] at gone

theorem handlers_stay (move : KeyMove format fingerprint appPath s op s' said) (gone : s'.handlers requestId = none) :
    s.handlers requestId = none := by
  cases move with
  | idle => exact gone
  | called => exact withHandler_stays gone
  | reserved => exact gone
  | rewritten => exact gone
  | decided => exact Option.map_eq_none_iff.mp gone
  | restaged => exact withHandler_stays gone
  | registered => exact withHandler_stays gone
  | cleaned => exact withHandler_stays (Option.map_eq_none_iff.mp gone)
  | saved => exact withHandler_stays gone

theorem ids_grow (move : KeyMove format fingerprint appPath s op s' said) : s.nextTrustId ≤ s'.nextTrustId := by
  cases move with
  | called => exact Nat.le_succ _
  | reserved => exact Nat.le_succ _
  | idle | rewritten | decided | restaged | registered | cleaned | saved => exact Nat.le_refl _

omit [DecidableEq κ] in
theorem filterMap_decided (requests : Nat → Bool) (decision : TrustDecision) (bound : Nat) :
    (((List.range bound).filter requests).map fun other => (KeyOutput.decided other decision : KeyOutput κ)).filterMap
      (decisionFor requestId) = if requestId < bound ∧ requests requestId = true then [decision] else [] := by
  induction bound with
  | zero => simp
  | succ bound ih =>
    rw [List.range_succ, List.filter_append, List.map_append, List.filterMap_append, ih]
    by_cases last : requestId = bound
    · subst last
      cases picked : requests requestId <;> simp [picked, decisionFor]
    · have other : bound ≠ requestId := Ne.symm last
      have below : requestId < bound + 1 ↔ requestId < bound := by omega
      cases picked : requests bound <;> simp [picked, decisionFor, other, below]

omit [DecidableEq κ] in
theorem decide_answers {chosen : Nat → TrustRegistryEntry → Bool} {decision : TrustDecision}
    (old : ∀ entry, s.registry requestId = some entry → requestId < s.nextTrustId) :
    ((s.decide chosen decision).2.filterMap (decisionFor requestId) = [] ∧
        (s.decide chosen decision).1.registry requestId = s.registry requestId) ∨
      ((s.decide chosen decision).2.filterMap (decisionFor requestId) = [decision] ∧ s.registry requestId ≠ none ∧
        (s.decide chosen decision).1.registry requestId = none) := by
  unfold decide
  rw [filterMap_decided]
  by_cases picked : (s.registry requestId).any (chosen requestId) = true
  · obtain ⟨entry, pending, -⟩ := (Option.any_eq_true _ _).mp picked
    refine .inr ⟨if_pos ⟨old entry pending, picked⟩, ?_, if_pos picked⟩
    rw [pending]
    exact Option.some_ne_none entry
  · exact .inl ⟨if_neg fun both => picked both.2, if_neg picked⟩

theorem answers_after (move : KeyMove format fingerprint appPath s op s' said)
    (old : ∀ entry, s.registry requestId = some entry → requestId < s.nextTrustId) :
    (said.filterMap (decisionFor requestId) = [] ∧ s'.registry requestId = s.registry requestId) ∨
      (∃ decision, said.filterMap (decisionFor requestId) = [decision] ∧ s.registry requestId ≠ none ∧
        s'.registry requestId = none) ∨
      ∃ handler, said = [] ∧ s.handlers requestId = some handler ∧ handler.stage = .unknown ∧
        s'.handlers requestId = some { handler with stage := .registered } := by
  cases move with
  | idle => exact .inl ⟨rfl, rfl⟩
  | called => exact .inl ⟨rfl, rfl⟩
  | reserved => exact .inl ⟨rfl, rfl⟩
  | rewritten => exact .inl ⟨rfl, rfl⟩
  | decided _ chosen decision asked => exact (decide_answers old).imp_right fun sent => .inl ⟨decision, sent⟩
  | restaged _ changed before known stage rejection outputs restages =>
    refine .inl ⟨?_, rfl⟩
    cases restages <;> rfl
  | registered _ changed before known stage =>
    by_cases same : requestId = changed
    · subst same
      exact .inr (.inr ⟨before, rfl, known, stage, Function.update_self ..⟩)
    · exact .inl ⟨rfl, Function.update_of_ne same ..⟩
  | cleaned _ changed before known stage =>
    exact (decide_answers (s := s.withHandler changed _) old).imp_right fun sent => .inl ⟨_, sent⟩
  | saved _ changed before known stage faults =>
    refine .inl ⟨?_, rfl⟩
    rw [List.filterMap_eq_nil_iff]
    intro output said
    obtain ⟨entry, -, rfl⟩ := List.mem_map.mp said
    rfl

theorem checked_after (move : KeyMove format fingerprint appPath s op s' said) {result : HostKeyCheckResult}
    (checked : .checked requestId result ∈ said) :
    ∃ handler, s.handlers requestId = some handler ∧ handler.stage = .called ∧ s'.store = s.store ∧
      s.store.check format handler.host handler.port handler.serverKey = result := by
  cases move with
  | idle | called | reserved | rewritten | registered => cases checked
  | decided _ chosen decision asked =>
    obtain ⟨other, -, same⟩ := List.mem_map.mp checked
    cases same
  | cleaned _ changed before known stage =>
    obtain ⟨other, -, same⟩ := List.mem_map.mp checked
    cases same
  | saved _ changed before known stage faults =>
    obtain ⟨entry, -, same⟩ := List.mem_map.mp checked
    cases same
  | restaged _ changed before known stage rejection outputs restages =>
    cases restages with
    | matched stage found | mismatched stage found | unknown stage found =>
      rw [List.mem_singleton] at checked
      cases checked
      exact ⟨before, known, stage, rfl, found⟩
    | prompted | finished => simp at checked
    | trusted | elapsed | refused | aborted => cases checked

omit [DecidableEq κ] in
theorem save_pins (lawful : format.Lawful) (s : KeySystem κ) (requestId : Nat) (handler : ClientHandler κ) (faults : WriteFaults) :
    let saved := s.save format appPath requestId handler faults
    saved.1.store.userEntries = s.store.userEntries ∧
      saved.1.store.appEntries = s.store.appEntries ++ saved.2.filterMap pinnedEntry ∧
      ∀ entry ∈ saved.2.filterMap pinnedEntry, entry.marker = none := by
  have pins : ∀ entries : List (Entry κ), (entries.map (KeyOutput.pinned requestId)).filterMap pinnedEntry = entries := by
    intro entries
    rw [List.filterMap_map]
    exact List.filterMap_some
  have adds := addTrusted_adds format faults s.disk s.store handler.host handler.port handler.serverKey appPath
  unfold save
  simp only [pins]
  generalize s.store.addTrusted format faults s.disk handler.host handler.port handler.serverKey appPath = trusting at adds ⊢
  cases adds with
  | refused | unsynced => simp
  | pinned entry accepted first read sync parsed =>
    obtain ⟨own, parsed', unmarked, -⟩ := accepted_entry lawful accepted
    cases parsed.symm.trans parsed'
    simp [unmarked]

theorem store_after (lawful : format.Lawful) (move : KeyMove format fingerprint appPath s op s' said) :
    s'.store.userEntries = s.store.userEntries ∧
      s'.store.appEntries = s.store.appEntries ++ said.filterMap pinnedEntry ∧
      ∀ entry ∈ said.filterMap pinnedEntry, entry.marker = none := by
  have quiet : (∀ output ∈ said, pinnedEntry output = none) → s'.store = s.store →
      s'.store.userEntries = s.store.userEntries ∧
        s'.store.appEntries = s.store.appEntries ++ said.filterMap pinnedEntry ∧
        ∀ entry ∈ said.filterMap pinnedEntry, entry.marker = none := by
    intro none_ same
    rw [List.filterMap_eq_nil_iff.mpr none_, same]
    simp
  cases move with
  | idle | called | reserved | rewritten | registered => exact quiet (fun _ output => by cases output) rfl
  | decided _ chosen decision asked =>
    refine quiet (fun output said => ?_) rfl
    obtain ⟨other, -, rfl⟩ := List.mem_map.mp said
    rfl
  | cleaned _ changed before known stage =>
    refine quiet (fun output said => ?_) rfl
    obtain ⟨other, -, rfl⟩ := List.mem_map.mp said
    rfl
  | restaged _ changed before known stage rejection outputs restages =>
    refine quiet ?_ rfl
    cases restages <;> simp [pinnedEntry]
  | saved _ changed before known stage faults => exact save_pins lawful s changed before faults

end Outputs

end KeySystem

end MacSftp
