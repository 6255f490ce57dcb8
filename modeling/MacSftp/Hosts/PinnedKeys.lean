import MacSftp.Hosts.KeyMoves

namespace MacSftp

open Lib

namespace KeySystem

variable {κ : Type} [DecidableEq κ] {format : HostFormat κ} {fingerprint algorithm : κ → String} {appPath : LocalPath}

section Claim

abbrev KeyLog (κ : Type) := List (KeyOp κ × List (KeyOutput κ))

def outputs (log : KeyLog κ) : List (KeyOutput κ) := log.flatMap Prod.snd

/-- The decisions that a request has been sent. -/
def decisions (log : KeyLog κ) (requestId : Nat) : List TrustDecision := (outputs log).filterMap (decisionFor requestId)

/-- The user has answered the request that the prompt for the handler's key was shown for. -/
structure UserTrusts (fingerprint : κ → String) (log : KeyLog κ) (requestId : Nat) (handler : ClientHandler κ) : Prop where
  answered : ∃ outputs, (.acceptHostKey requestId, outputs) ∈ log ∧ .decided requestId .trustAndSave ∈ outputs
  shown : ∃ prompt, .prompted prompt ∈ outputs log ∧ prompt.requestId = requestId ∧
    prompt.fingerprint = fingerprint handler.serverKey.keyData

/-- A handler may say that the key is good. -/
structure Deserved (format : HostFormat κ) (fingerprint : κ → String) (log : KeyLog κ) (s : KeySystem κ) (requestId : Nat)
    (handler : ClientHandler κ) : Prop where
  clear : s.store.check format handler.host handler.port handler.serverKey ≠ .mismatch
  earned : .checked requestId .matched ∈ outputs log ∨ UserTrusts fingerprint log requestId handler

/-- What has just been done when a handler returns that the key is good. -/
def Accepting (start : KeySystem κ) (format : HostFormat κ) (fingerprint algorithm : κ → String) (appPath : LocalPath)
    (ops : List (KeyOp κ)) (holds : KeyLog κ → KeySystem κ → Nat → ClientHandler κ → Prop) : Prop :=
  ∀ before requestId after, ops = before ++ .finish requestId :: after → ∀ handler,
    ((machine format fingerprint algorithm appPath).run start before).handlers requestId = some handler →
      handler.stage = .returning true →
        holds ((machine format fingerprint algorithm appPath).log start before)
          ((machine format fingerprint algorithm appPath).run start before) requestId handler

/-- No key is accepted against a pinned one, and no request gets two decisions. -/
structure PinsRespected (start : KeySystem κ) (format : HostFormat κ) (fingerprint algorithm : κ → String) (appPath : LocalPath)
    (ops : List (KeyOp κ)) : Prop where
  accepted : Accepting start format fingerprint algorithm appPath ops (Deserved format fingerprint)
  once : ∀ requestId, (decisions ((machine format fingerprint algorithm appPath).log start ops) requestId).length ≤ 1

/-- A key for the handler's host has been pinned in the run, and its own has not, though it was unknown when it was checked. -/
structure Contested (format : HostFormat κ) (log : KeyLog κ) (requestId : Nat) (handler : ClientHandler κ) : Prop where
  unknown : .checked requestId .notFound ∈ outputs log
  other : ∃ pinner entry, .pinned pinner entry ∈ outputs log ∧
    entryMatchesHost format entry (hostPattern handler.host handler.port) = true
  own : ∀ pinner entry, .pinned pinner entry ∈ outputs log →
    entryMatchesHost format entry (hostPattern handler.host handler.port) = true →
      entry.publicKey.keyData ≠ handler.serverKey.keyData

end Claim

section Logs

variable {log : KeyLog κ} {op : KeyOp κ} {said : List (KeyOutput κ)} {requestId : Nat} {handler : ClientHandler κ}

omit [DecidableEq κ] in
theorem outputs_concat (log : KeyLog κ) (op : KeyOp κ) (said : List (KeyOutput κ)) :
    outputs (log ++ [(op, said)]) = outputs log ++ said := by
  simp [outputs]

omit [DecidableEq κ] in
theorem decisions_concat (log : KeyLog κ) (op : KeyOp κ) (said : List (KeyOutput κ)) (requestId : Nat) :
    decisions (log ++ [(op, said)]) requestId = decisions log requestId ++ said.filterMap (decisionFor requestId) := by
  rw [decisions, outputs_concat, List.filterMap_append]
  rfl

omit [DecidableEq κ] in
theorem UserTrusts.later (trusts : UserTrusts fingerprint log requestId handler) (more : KeyOp κ × List (KeyOutput κ)) :
    UserTrusts fingerprint (log ++ [more]) requestId handler := by
  obtain ⟨⟨said, given, sent⟩, prompt, shown, same⟩ := trusts
  refine ⟨⟨said, List.mem_append_left _ given, sent⟩, prompt, ?_, same⟩
  rw [outputs_concat]
  exact List.mem_append_left _ shown

end Logs

section Invariants

variable {s s' : KeySystem κ} {log : KeyLog κ} {op : KeyOp κ} {said : List (KeyOutput κ)}

/-- An id that no call has taken has not been heard of. -/
structure Numbered (log : KeyLog κ) (s : KeySystem κ) : Prop where
  new : ∀ requestId, s.nextTrustId ≤ requestId → s.handlers requestId = none
  unregistered : ∀ requestId, s.handlers requestId = none → s.registry requestId = none
  unchecked : ∀ requestId, s.handlers requestId = none → ∀ result, .checked requestId result ∉ outputs log

omit [DecidableEq κ] in
theorem Numbered.old (numbered : Numbered log s) {requestId : Nat} {entry : TrustRegistryEntry}
    (pending : s.registry requestId = some entry) : requestId < s.nextTrustId := by
  by_contra beyond
  rw [numbered.unregistered _ (numbered.new _ (Nat.le_of_not_lt beyond))] at pending
  cases pending

theorem numbered_kept (numbered : Numbered log s) (move : KeyMove format fingerprint appPath s op s' said) :
    Numbered (log ++ [(op, said)]) s' := by
  refine ⟨?_, ?_, ?_⟩
  · intro requestId beyond
    cases after : s'.handlers requestId with
    | none => rfl
    | some handler =>
      have before := numbered.new requestId (Nat.le_trans (ids_grow move) beyond)
      cases move with
      | called host port scope serverKey =>
        rcases withHandler_handlers after with ⟨rfl, -⟩ | known
        · exact absurd beyond (Nat.not_le_of_lt (Nat.lt_succ_self _))
        · cases before.symm.trans known
      | idle | reserved | rewritten => cases before.symm.trans after
      | decided =>
        obtain ⟨earlier, known, -⟩ := Option.map_eq_some_iff.mp after
        cases before.symm.trans known
      | restaged _ changed earlier known =>
        rcases withHandler_handlers after with ⟨rfl, -⟩ | there
        · cases before.symm.trans known
        · cases before.symm.trans there
      | registered _ changed earlier known =>
        rcases withHandler_handlers after with ⟨rfl, -⟩ | there
        · cases before.symm.trans known
        · cases before.symm.trans there
      | cleaned _ changed earlier known =>
        obtain ⟨middle, after, -⟩ := Option.map_eq_some_iff.mp after
        rcases withHandler_handlers after with ⟨rfl, -⟩ | there
        · cases before.symm.trans known
        · cases before.symm.trans there
      | saved _ changed earlier known =>
        rcases withHandler_handlers after with ⟨rfl, -⟩ | there
        · cases before.symm.trans known
        · cases before.symm.trans there
  · intro requestId gone
    have before := handlers_stay move gone
    rcases answers_after move fun _ => numbered.old with ⟨-, same⟩ | ⟨_, -, -, emptied⟩ | ⟨_, -, known, -⟩
    · exact same.trans (numbered.unregistered _ before)
    · exact emptied
    · cases before.symm.trans known
  · intro requestId gone result checked
    have before := handlers_stay move gone
    rw [outputs_concat] at checked
    rcases List.mem_append.mp checked with earlier | now
    · exact numbered.unchecked _ before result earlier
    · obtain ⟨handler, known, -⟩ := checked_after move now
      cases before.symm.trans known

/-- A request that has not been registered yet. -/
def unregistered : Option (ClientHandler κ) → Bool
  | none => true
  | some handler => handler.stage = .called || handler.stage = .unknown

structure DecidedOnce (log : KeyLog κ) (s : KeySystem κ) : Prop where
  once : ∀ requestId, (decisions log requestId).length ≤ 1
  pending : ∀ requestId, s.registry requestId ≠ none → decisions log requestId = []
  early : ∀ requestId, unregistered (s.handlers requestId) = true → s.registry requestId = none ∧ decisions log requestId = []

theorem unregistered_before (numbered : Numbered log s) (move : KeyMove format fingerprint appPath s op s' said) {requestId : Nat}
    (early : unregistered (s'.handlers requestId) = true) : unregistered (s.handlers requestId) = true := by
  cases after : s'.handlers requestId with
  | none => rw [handlers_stay move after]; rfl
  | some handler =>
    rw [after] at early
    cases handler_after move numbered.new after with
    | called host port scope serverKey new => rw [numbered.new requestId new.ge]; rfl
    | same handler known => rw [known]; exact early
    | heard handler known listens => rw [known]; exact early
    | restaged handler known stage rejection restages =>
      rw [known]
      cases restages <;> simp_all [unregistered]
    | registered handler known => simp [unregistered] at early
    | cleaned handler known => simp [unregistered] at early
    | saved handler known => simp [unregistered] at early

theorem decidedOnce_kept (numbered : Numbered log s) (decided : DecidedOnce log s)
    (move : KeyMove format fingerprint appPath s op s' said) : DecidedOnce (log ++ [(op, said)]) s' := by
  have answers := fun requestId => @answers_after _ _ _ _ _ _ _ _ _ requestId move fun _ => numbered.old
  refine ⟨?_, ?_, ?_⟩
  · intro requestId
    rw [decisions_concat]
    rcases answers requestId with ⟨none_, -⟩ | ⟨decision, one, pending, -⟩ | ⟨_, rfl, -⟩
    · rw [none_, List.append_nil]
      exact decided.once requestId
    · rw [one, decided.pending requestId pending]
      exact Nat.le_refl 1
    · rw [List.filterMap_nil, List.append_nil]
      exact decided.once requestId
  · intro requestId pending
    rw [decisions_concat]
    rcases answers requestId with ⟨none_, same⟩ | ⟨_, -, -, emptied⟩ | ⟨handler, rfl, known, stage, -⟩
    · rw [none_, List.append_nil]
      exact decided.pending requestId (same ▸ pending)
    · exact absurd emptied pending
    · rw [List.filterMap_nil, List.append_nil]
      refine (decided.early requestId ?_).2
      simp [known, unregistered, stage]
  · intro requestId early
    obtain ⟨free, none_⟩ := decided.early requestId (unregistered_before numbered move early)
    rw [decisions_concat, none_]
    rcases answers requestId with ⟨none_, same⟩ | ⟨_, -, pending, -⟩ | ⟨handler, -, -, -, after⟩
    · exact ⟨same.trans free, none_⟩
    · exact absurd free pending
    · rw [after] at early
      simp [unregistered] at early

/-- What the log says of a handler. -/
structure Told (fingerprint : κ → String) (log : KeyLog κ) (requestId : Nat) (handler : ClientHandler κ) : Prop where
  received : handler.received = some .trustAndSave →
    ∃ outputs, (.acceptHostKey requestId, outputs) ∈ log ∧ .decided requestId .trustAndSave ∈ outputs
  shown : handler.stage = .prompting → ∃ prompt, .prompted prompt ∈ outputs log ∧ prompt.requestId = requestId ∧
    prompt.fingerprint = fingerprint handler.serverKey.keyData
  trusted : handler.stage = .trusted → UserTrusts fingerprint log requestId handler
  unknown : handler.stage = .unknown ∨ handler.stage = .registered ∨ handler.stage = .prompting ∨ handler.stage = .trusted →
    .checked requestId .notFound ∈ outputs log
  accepting : handler.stage = .returning true → .checked requestId .matched ∈ outputs log ∨
    .checked requestId .notFound ∈ outputs log ∧ UserTrusts fingerprint log requestId handler

omit [DecidableEq κ] in
theorem Told.later {requestId : Nat} {handler : ClientHandler κ} (told : Told fingerprint log requestId handler)
    (more : KeyOp κ × List (KeyOutput κ)) : Told fingerprint (log ++ [more]) requestId handler := by
  have still : ∀ output ∈ outputs log, output ∈ outputs (log ++ [more]) := by
    intro output said
    rw [outputs_concat]
    exact List.mem_append_left _ said
  refine ⟨?_, ?_, ?_, ?_, ?_⟩
  · intro received
    obtain ⟨said, given, sent⟩ := told.received received
    exact ⟨said, List.mem_append_left _ given, sent⟩
  · intro stage
    obtain ⟨prompt, shown, same⟩ := told.shown stage
    exact ⟨prompt, still _ shown, same⟩
  · intro stage
    exact (told.trusted stage).later more
  · intro stage
    exact still _ (told.unknown stage)
  · intro stage
    exact (told.accepting stage).imp (still _) fun both => ⟨still _ both.1, both.2.later more⟩

theorem told_restaged {requestId : Nat} {handler : ClientHandler κ} {stage : KeyCheckStage} {rejection : Option HostKeyRejection}
    (told : Told fingerprint log requestId handler) (restages : Restages format fingerprint s requestId handler stage said) :
    Told fingerprint (log ++ [(op, said)]) requestId { handler with stage := stage, rejection := rejection } := by
  have later := told.later (op, said)
  have now : ∀ output ∈ said, output ∈ outputs (log ++ [(op, said)]) := by
    intro output last
    rw [outputs_concat]
    exact List.mem_append_right _ last
  cases restages with
  | matched =>
    refine ⟨later.received, ?_, ?_, ?_, fun _ => .inl (now _ List.mem_cons_self)⟩ <;> simp
  | mismatched => refine ⟨later.received, ?_, ?_, ?_, ?_⟩ <;> simp
  | unknown =>
    refine ⟨later.received, ?_, ?_, fun _ => now _ List.mem_cons_self, ?_⟩ <;> simp
  | prompted stage prompt own shown =>
    refine ⟨later.received, fun _ => ⟨prompt, now _ List.mem_cons_self, own, shown⟩, ?_, ?_, ?_⟩
    · simp
    · exact fun _ => later.unknown (.inr (.inl stage))
    · simp
  | trusted stage received =>
    have trusts : UserTrusts fingerprint (log ++ [(op, [])]) requestId handler := ⟨later.received received, later.shown stage⟩
    refine ⟨later.received, ?_, fun _ => ⟨trusts.answered, trusts.shown⟩, ?_, ?_⟩
    · simp
    · exact fun _ => later.unknown (.inr (.inr (.inl stage)))
    · simp
  | elapsed => refine ⟨later.received, ?_, ?_, ?_, ?_⟩ <;> simp
  | refused => refine ⟨later.received, ?_, ?_, ?_, ?_⟩ <;> simp
  | finished => refine ⟨later.received, ?_, ?_, ?_, ?_⟩ <;> simp
  | aborted => refine ⟨later.received, ?_, ?_, ?_, ?_⟩ <;> simp

def AllTold (fingerprint : κ → String) (log : KeyLog κ) (s : KeySystem κ) : Prop :=
  ∀ requestId handler, s.handlers requestId = some handler → Told fingerprint log requestId handler

theorem allTold_kept (numbered : Numbered log s) (told : AllTold fingerprint log s)
    (move : KeyMove format fingerprint appPath s op s' said) : AllTold fingerprint (log ++ [(op, said)]) s' := by
  intro requestId handler after
  cases handler_after move numbered.new after with
  | called host port scope serverKey new => exact ⟨by simp, by simp, by simp, by simp, by simp⟩
  | same handler known => exact (told _ _ known).later _
  | heard handler known listens decision sent asked =>
    have later := (told _ _ known).later (op, said)
    refine ⟨?_, later.shown, ?_, later.unknown, ?_⟩
    · intro received
      cases received
      exact ⟨said, asked rfl ▸ List.mem_append_right _ List.mem_cons_self, sent⟩
    · intro stage
      have trusts := later.trusted stage
      exact ⟨trusts.answered, trusts.shown⟩
    · intro stage
      exact (later.accepting stage).imp_right fun both => ⟨both.1, both.2.answered, both.2.shown⟩
  | restaged handler known stage rejection restages => exact told_restaged (told _ _ known) restages
  | registered handler known stage =>
    have later := (told _ _ known).later (op, said)
    refine ⟨later.received, ?_, ?_, fun _ => later.unknown (.inl stage), ?_⟩ <;> simp
  | cleaned handler known rejection =>
    have later := (told _ _ known).later (op, said)
    refine ⟨later.received, ?_, ?_, ?_, ?_⟩ <;> simp
  | saved handler known stage =>
    have later := (told _ _ known).later (op, said)
    have trusts := later.trusted stage
    refine ⟨later.received, ?_, ?_, ?_, fun _ => .inr ⟨later.unknown (.inr (.inr (.inr stage))), trusts.answered, trusts.shown⟩⟩ <;>
      simp

end Invariants

section Store

variable {s s' start : KeySystem κ} {log : KeyLog κ} {op : KeyOp κ} {said : List (KeyOutput κ)}

/-- The store holds what it held at the start and what has been pinned, and its verdicts on the keys checked are kept. -/
structure Pins (format : HostFormat κ) (start : KeySystem κ) (log : KeyLog κ) (s : KeySystem κ) : Prop where
  user : s.store.userEntries = start.store.userEntries
  app : s.store.appEntries = start.store.appEntries ++ (outputs log).filterMap pinnedEntry
  unmarked : ∀ entry ∈ (outputs log).filterMap pinnedEntry, entry.marker = none
  unnamed : ∀ requestId handler, s.handlers requestId = some handler → .checked requestId .notFound ∈ outputs log →
    ∀ entry ∈ start.store.entries, entry.names format (hostPattern handler.host handler.port) = false
  matched : ∀ requestId handler, s.handlers requestId = some handler → .checked requestId .matched ∈ outputs log →
    s.store.check format handler.host handler.port handler.serverKey = .matched

theorem Pins.mem (pins : Pins format start log s) (entry : Entry κ) :
    entry ∈ s.store.entries ↔ entry ∈ start.store.entries ∨ ∃ pinner, .pinned pinner entry ∈ outputs log := by
  have pinned : entry ∈ (outputs log).filterMap pinnedEntry ↔ ∃ pinner, .pinned pinner entry ∈ outputs log := by
    rw [List.mem_filterMap]
    constructor
    · rintro ⟨output, said, same⟩
      cases output <;> simp only [pinnedEntry, reduceCtorEq, Option.some.injEq] at same
      subst same
      exact ⟨_, said⟩
    · rintro ⟨pinner, said⟩
      exact ⟨_, said, rfl⟩
  rw [← pinned, KnownHostsStore.entries, KnownHostsStore.entries, pins.app, pins.user, List.mem_append, List.mem_append,
    List.mem_append]
  tauto

theorem names_of_notFound {store : KnownHostsStore κ} {host : List Char} {port : UInt16} {key : PublicKey κ}
    (found : store.check format host port key = .notFound) :
    ∀ entry ∈ store.entries, entry.names format (hostPattern host port) = false := by
  have none_ : store.entries.any (Entry.names format (hostPattern host port)) = false := by
    rw [KnownHostsStore.check_eq, verdict] at found
    split_ifs at found with _ _ named
    rwa [Bool.not_eq_true] at named
  intro entry stored
  rw [List.any_eq_false] at none_
  simpa using none_ entry stored

theorem check_grown {store grown : KnownHostsStore κ} {host : List Char} {port : UInt16} {key : PublicKey κ}
    (matched : store.check format host port key = .matched) (more : ∀ entry ∈ store.entries, entry ∈ grown.entries)
    (unmarked : ∀ entry ∈ grown.entries, entry ∈ store.entries ∨ entry.marker = none) :
    grown.check format host port key = .matched := by
  obtain ⟨clear, trusted⟩ := (KnownHostsStore.check_matched format).mp matched
  refine (KnownHostsStore.check_matched format).mpr ⟨?_, trusted.mono format more⟩
  rintro ⟨entry, stored, revoked, names⟩
  rcases unmarked entry stored with earlier | plain
  · exact clear ⟨entry, earlier, revoked, names⟩
  · rw [plain] at revoked
    cases revoked

theorem handler_before (numbered : Numbered log s) (move : KeyMove format fingerprint appPath s op s' said) {requestId : Nat}
    {handler : ClientHandler κ} (after : s'.handlers requestId = some handler) :
    s.handlers requestId = none ∨ ∃ before, s.handlers requestId = some before ∧ before.host = handler.host ∧
      before.port = handler.port ∧ before.serverKey = handler.serverKey := by
  cases handler_after move numbered.new after with
  | called host port scope serverKey new => exact .inl (numbered.new _ new.ge)
  | same handler known => exact .inr ⟨handler, known, rfl, rfl, rfl⟩
  | heard handler known => exact .inr ⟨handler, known, rfl, rfl, rfl⟩
  | restaged handler known => exact .inr ⟨handler, known, rfl, rfl, rfl⟩
  | registered handler known => exact .inr ⟨handler, known, rfl, rfl, rfl⟩
  | cleaned handler known => exact .inr ⟨handler, known, rfl, rfl, rfl⟩
  | saved handler known => exact .inr ⟨handler, known, rfl, rfl, rfl⟩

theorem checked_before (numbered : Numbered log s) (move : KeyMove format fingerprint appPath s op s' said) {requestId : Nat}
    {handler : ClientHandler κ} (after : s'.handlers requestId = some handler) {result : HostKeyCheckResult}
    (checked : .checked requestId result ∈ outputs (log ++ [(op, said)])) :
    (∃ before, s.handlers requestId = some before ∧ before.host = handler.host ∧ before.port = handler.port ∧
        before.serverKey = handler.serverKey ∧ .checked requestId result ∈ outputs log) ∨
      s'.store = s.store ∧ s.store.check format handler.host handler.port handler.serverKey = result := by
  rw [outputs_concat] at checked
  rcases handler_before numbered move after with none_ | ⟨before, known, host, port, key⟩
  · rcases List.mem_append.mp checked with earlier | now
    · exact absurd earlier (numbered.unchecked requestId none_ result)
    · obtain ⟨other, known, -⟩ := checked_after move now
      cases none_.symm.trans known
  · rcases List.mem_append.mp checked with earlier | now
    · exact .inl ⟨before, known, host, port, key, earlier⟩
    · obtain ⟨own, known', -, same, found⟩ := checked_after move now
      cases known.symm.trans known'
      exact .inr ⟨same, by rw [← host, ← port, ← key, found]⟩

theorem pins_kept (lawful : format.Lawful) (numbered : Numbered log s) (pins : Pins format start log s)
    (move : KeyMove format fingerprint appPath s op s' said) : Pins format start (log ++ [(op, said)]) s' := by
  obtain ⟨user, app, unmarked⟩ := store_after lawful move
  have more : ∀ entry, entry ∈ s'.store.entries ↔ entry ∈ s.store.entries ∨ entry ∈ said.filterMap pinnedEntry := by
    intro entry
    rw [KnownHostsStore.entries, KnownHostsStore.entries, user, app, List.mem_append, List.mem_append, List.mem_append]
    tauto
  refine ⟨user.trans pins.user, ?_, ?_, ?_, ?_⟩
  · rw [app, pins.app, outputs_concat, List.filterMap_append, List.append_assoc]
  · intro entry pinned
    rw [outputs_concat, List.filterMap_append] at pinned
    exact (List.mem_append.mp pinned).elim (pins.unmarked entry) (unmarked entry)
  · intro requestId handler after checked
    rcases checked_before numbered move after checked with ⟨before, known, host, port, -, earlier⟩ | ⟨-, found⟩
    · rw [← host, ← port]
      exact pins.unnamed requestId before known earlier
    · intro entry stored
      exact names_of_notFound found entry ((pins.mem entry).mpr (.inl stored))
  · intro requestId handler after checked
    rcases checked_before numbered move after checked with ⟨before, known, host, port, key, earlier⟩ | ⟨same, found⟩
    · rw [← host, ← port, ← key]
      refine check_grown (pins.matched requestId before known earlier) (fun entry stored => (more entry).mpr (.inl stored)) ?_
      exact fun entry stored => ((more entry).mp stored).imp_right (unmarked entry)
    · rw [same]
      exact found

theorem mismatch_iff_contested (pins : Pins format start log s) {requestId : Nat} {handler : ClientHandler κ}
    (known : s.handlers requestId = some handler) (unknown : .checked requestId .notFound ∈ outputs log) :
    s.store.check format handler.host handler.port handler.serverKey = .mismatch ↔ Contested format log requestId handler := by
  have unnamed := pins.unnamed requestId handler known unknown
  -- an entry for the host that is not an authority's has been pinned
  have pinned : ∀ entry ∈ s.store.entries, entry.names format (hostPattern handler.host handler.port) = true →
      ∃ pinner, .pinned pinner entry ∈ outputs log := by
    intro entry stored names
    rcases (pins.mem entry).mp stored with initial | pinned
    · rw [unnamed entry initial] at names
      cases names
    · exact pinned
  have plain : ∀ pinner entry, .pinned pinner entry ∈ outputs log → entry.marker = none := by
    intro pinner entry said
    exact pins.unmarked entry (List.mem_filterMap.mpr ⟨_, said, rfl⟩)
  have clear : ¬s.store.NamesKey format handler.host handler.port handler.serverKey (some .revoked) := by
    rintro ⟨entry, stored, revoked, names, -⟩
    obtain ⟨pinner, said⟩ := pinned entry stored (by simp [Entry.names, names, revoked])
    rw [plain pinner entry said] at revoked
    cases revoked
  have named : s.store.entries.any (Entry.names format (hostPattern handler.host handler.port)) = true ↔
      ∃ pinner entry, .pinned pinner entry ∈ outputs log ∧
        entryMatchesHost format entry (hostPattern handler.host handler.port) = true := by
    rw [List.any_eq_true]
    constructor
    · rintro ⟨entry, stored, names⟩
      obtain ⟨pinner, said⟩ := pinned entry stored names
      rw [names_unmarked (plain pinner entry said)] at names
      exact ⟨pinner, entry, said, names⟩
    · rintro ⟨pinner, entry, said, names⟩
      refine ⟨entry, (pins.mem entry).mpr (.inr ⟨pinner, said⟩), ?_⟩
      rwa [names_unmarked (plain pinner entry said)]
  have trusted : s.store.NamesKey format handler.host handler.port handler.serverKey none ↔
      ∃ pinner entry, .pinned pinner entry ∈ outputs log ∧
        entryMatchesHost format entry (hostPattern handler.host handler.port) = true ∧
        entry.publicKey.keyData = handler.serverKey.keyData := by
    constructor
    · rintro ⟨entry, stored, unmarked, names, key⟩
      obtain ⟨pinner, said⟩ := pinned entry stored (by rwa [names_unmarked unmarked])
      exact ⟨pinner, entry, said, names, key⟩
    · rintro ⟨pinner, entry, said, names, key⟩
      exact ⟨entry, (pins.mem entry).mpr (.inr ⟨pinner, said⟩), plain pinner entry said, names, key⟩
  by_cases own : s.store.NamesKey format handler.host handler.port handler.serverKey none
  · obtain ⟨pinner, entry, said, names, key⟩ := trusted.mp own
    rw [(KnownHostsStore.check_matched format).mpr ⟨clear, own⟩]
    constructor
    · intro wrong
      cases wrong
    · intro contested
      exact absurd key (contested.own pinner entry said names)
  · rw [KnownHostsStore.check_unnamed format clear own]
    constructor
    · intro mismatch
      split_ifs at mismatch with some_
      refine ⟨unknown, named.mp some_, ?_⟩
      exact fun pinner entry said names key => own (trusted.mpr ⟨pinner, entry, said, names, key⟩)
    · intro contested
      exact if_pos (named.mpr contested.other)

end Store

section Runs

/-- What holds along a run. -/
structure Sound (format : HostFormat κ) (fingerprint : κ → String) (start : KeySystem κ) (log : KeyLog κ) (s : KeySystem κ) :
    Prop where
  numbered : Numbered log s
  decided : DecidedOnce log s
  told : AllTold fingerprint log s
  pins : Pins format start log s

theorem sound_start (store : KnownHostsStore κ) (disk : Disk) : Sound format fingerprint { store, disk } [] { store, disk } where
  numbered := ⟨fun _ _ => rfl, fun _ _ => rfl, fun _ _ _ said => by cases said⟩
  decided := ⟨fun _ => Nat.zero_le 1, fun _ _ => rfl, fun _ _ => ⟨rfl, rfl⟩⟩
  told := fun _ _ known => by cases known
  pins := by
    refine ⟨rfl, (List.append_nil _).symm, ?_, ?_, ?_⟩
    · intro _ pinned
      cases pinned
    · intro _ _ known
      cases known
    · intro _ _ known
      cases known

theorem sound_run (lawful : format.Lawful) (store : KnownHostsStore κ) (disk : Disk) (ops : List (KeyOp κ)) :
    Sound format fingerprint { store, disk } ((machine format fingerprint algorithm appPath).log { store, disk } ops)
      ((machine format fingerprint algorithm appPath).run { store, disk } ops) := by
  refine Machine.log_invariant _ ?_ (sound_start store disk) ops
  intro past s op sound
  have move : KeyMove format fingerprint appPath s op ((machine format fingerprint algorithm appPath).next s op)
      ((machine format fingerprint algorithm appPath).out s op) := step_move s op
  exact ⟨numbered_kept sound.numbered move, decidedOnce_kept sound.numbered sound.decided move,
    allTold_kept sound.numbered sound.told move, pins_kept lawful sound.numbered sound.pins move⟩

theorem deserved_iff {start s : KeySystem κ} {log : KeyLog κ} (sound : Sound format fingerprint start log s) {requestId : Nat}
    {handler : ClientHandler κ} (known : s.handlers requestId = some handler) (accepts : handler.stage = .returning true) :
    Deserved format fingerprint log s requestId handler ↔ ¬Contested format log requestId handler := by
  constructor
  · intro deserved contested
    exact deserved.clear ((mismatch_iff_contested sound.pins known contested.unknown).mpr contested)
  · intro uncontested
    rcases (sound.told requestId handler known).accepting accepts with matched | ⟨unknown, trusts⟩
    · refine ⟨?_, .inl matched⟩
      rw [sound.pins.matched requestId handler known matched]
      exact nofun
    · exact ⟨fun wrong => uncontested ((mismatch_iff_contested sound.pins known unknown).mp wrong), .inr trusts⟩

/-- No key is accepted against a pinned one, in any run in which no handshake returns an accepted key that was unknown when it
was checked, after another key was pinned for the host and without its own being pinned. -/
theorem pins_respected_iff (lawful : format.Lawful) (store : KnownHostsStore κ) (disk : Disk) (ops : List (KeyOp κ)) :
    PinsRespected { store, disk } format fingerprint algorithm appPath ops ↔
      Accepting { store, disk } format fingerprint algorithm appPath ops fun log _ requestId handler =>
        ¬Contested format log requestId handler := by
  constructor
  · intro respected before requestId after split handler known accepts
    exact (deserved_iff (sound_run lawful store disk before) known accepts).mp
      (respected.accepted before requestId after split handler known accepts)
  · intro uncontested
    refine ⟨?_, (sound_run lawful store disk ops).decided.once⟩
    intro before requestId after split handler known accepts
    exact (deserved_iff (sound_run lawful store disk before) known accepts).mpr
      (uncontested before requestId after split handler known accepts)

end Runs

section Examples

def plainMachine : Machine (KeySystem Bool) (KeyOp Bool) (List (KeyOutput Bool)) :=
  machine HostFormat.plain KnownHostsStore.keyDigest (fun _ => "ssh-ed25519") (.new "known_hosts")

def noHosts : KeySystem Bool where
  store := ⟨[], []⟩
  disk := fun _ => .missing

/-- Two tabs connect to one host and are shown different keys, and the user trusts the first. -/
def twoKeys : List (KeyOp Bool) :=
  [.call ['h'] 22 ⟨⟨1⟩, ⟨10⟩, 1⟩ ⟨false, []⟩, .call ['h'] 22 ⟨⟨2⟩, ⟨20⟩, 1⟩ ⟨true, []⟩, .check 1, .check 2,
    .register 1, .register 2,
    .prompt 1, .prompt 2, .acceptHostKey 1, .heed 1, .save 1 {}]

theorem pins_respected_both :
    PinsRespected noHosts HostFormat.plain KnownHostsStore.keyDigest (fun _ =>
      "ssh-ed25519") (.new "known_hosts") (twoKeys ++ [.finish 1]) := by
  apply (pins_respected_iff HostFormat.plain_lawful _ _ _).mpr
  intro before requestId after split handler known accepts contested
  obtain ⟨rfl, rfl, rfl⟩ : before = twoKeys ∧ requestId = 1 ∧ after = [] := by
    simpa [twoKeys, List.cons_eq_append_iff] using split
  have own : .pinned 1 ⟨none, .patterns [['h']], ⟨false, []⟩⟩ ∈ outputs (plainMachine.log noHosts twoKeys) := by decide +kernel
  have key : (plainMachine.run noHosts twoKeys).handlers 1 =
      some { host := ['h'], port := 22, scope := ⟨⟨1⟩, ⟨10⟩, 1⟩, serverKey := ⟨false, []⟩, stage := .returning true,
             received := some .trustAndSave } := by decide +kernel
  cases known.symm.trans key
  exact contested.own 1 _ own (by decide) rfl

/-- The user trusts the second key too, which cannot be saved. -/
def fullDisk : List (KeyOp Bool) :=
  twoKeys ++ [.finish 1, .acceptHostKey 2, .heed 2, .save 2 { staging := some ⟨.other, "No space left on device"⟩ }]

/-- The second key is accepted, though the store holds the first. -/
theorem key_accepted_against_pin :
    plainMachine.out (plainMachine.run noHosts fullDisk) (.finish 2) = [.returned 2 true] ∧
      (plainMachine.run noHosts fullDisk).store.check HostFormat.plain ['h'] 22 ⟨true, []⟩ = .mismatch ∧
      ¬PinsRespected noHosts HostFormat.plain KnownHostsStore.keyDigest (fun _ =>
        "ssh-ed25519") (.new "known_hosts") (fullDisk ++ [.finish 2]) := by
  have wrong : (plainMachine.run noHosts fullDisk).store.check HostFormat.plain ['h'] 22 ⟨true, []⟩ = .mismatch := by
    decide +kernel
  have key : (plainMachine.run noHosts fullDisk).handlers 2 =
      some { host := ['h'], port := 22, scope := ⟨⟨2⟩, ⟨20⟩, 1⟩, serverKey := ⟨true, []⟩, stage := .returning true,
             received := some .trustAndSave } := by decide +kernel
  refine ⟨by decide +kernel, wrong, fun respected => ?_⟩
  exact (respected.accepted fullDisk 2 [] rfl _ key rfl).clear wrong

end Examples

end KeySystem

end MacSftp
