import MacSftp.Connect.Authenticate

namespace MacSftp.Handshake

open Lib Program

/-- What the peer, the agent and the user have answered, in order. -/
abbrev Asked := Lib.Asked Unit HandshakeOp HandshakeOp.Answer

/-- The runs of a sign-in: every answer can come. -/
abbrev Runs {α : Type} (p : HandshakeM α) (asked : List Asked) (result : Except ConnectFailure α) : Prop :=
  Run (fun _ _ => True) (fun _ _ _ _ => True) p () asked () result

def answered (op : HandshakeOp) (answer : op.Answer) : Asked := ⟨(), op, answer, ()⟩

section

variable {α β : Type} {asked : List Asked} {result : Except ConnectFailure β}

theorem runs_done {r r' : Except ConnectFailure α} : Runs (done r) asked r' ↔ asked = [] ∧ r' = r := by
  constructor
  · rintro ⟨⟩
    exact ⟨rfl, rfl⟩
  · rintro ⟨rfl, rfl⟩
    exact .done _ _

theorem runs_pure {a : α} {r : Except ConnectFailure α} : Runs (pure a) asked r ↔ asked = [] ∧ r = .ok a := runs_done

theorem runs_throw {e : ConnectFailure} {r : Except ConnectFailure α} : Runs (throw e) asked r ↔ asked = [] ∧ r = .error e :=
  runs_done

theorem runs_ask {op : HandshakeOp} {next : op.Answer → HandshakeM β} :
    Runs (ask op next) asked result ↔ ∃ answer rest, asked = answered op answer :: rest ∧ Runs (next answer) rest result := by
  constructor
  · intro run
    cases run with
    | ask between step rest => exact ⟨_, _, rfl, rest⟩
  · rintro ⟨answer, rest, rfl, run⟩
    exact .ask trivial trivial run

theorem runs_perform {op : HandshakeOp} {f : op.Answer → HandshakeM β} :
    Runs (perform op >>= f) asked result ↔ ∃ answer rest, asked = answered op answer :: rest ∧ Runs (f answer) rest result :=
  runs_ask

/-- What a bounded call returns to the code. -/
def phaseResult {γ : Type} (phase : String) : Option (Except TransportFailureKind γ) → Except HandshakePhaseError γ
  | some (.ok reply) => .ok reply
  | some (.error error) => .error (.failed error)
  | none => .error (.timedOut phase)

theorem runs_bounded {timeout : Nat} {phase : String} {call : Call} {f : Except HandshakePhaseError call.Reply → HandshakeM β} :
    Runs (boundedHandshake timeout phase call >>= f) asked result ↔
      ∃ answer rest, asked = answered (.call timeout call) answer :: rest ∧ Runs (f (phaseResult phase answer)) rest result := by
  refine runs_ask.trans ?_
  apply exists_congr
  intro answer
  rcases answer with _ | _ | _ <;> exact Iff.rfl

theorem runs_attempt {p : HandshakeM α} {f : Except ConnectFailure α → HandshakeM β}
    (run : Runs (p.attempt >>= f) asked result) :
    ∃ before after r, asked = before ++ after ∧ Runs p before r ∧ Runs (f r) after result := by
  rcases run.of_bind with ⟨e, failed, _⟩ | ⟨before, after, _, r, rfl, first, second⟩
  · obtain ⟨_, impossible, _⟩ := failed.of_attempt
    cases impossible
  · obtain ⟨r', same, first⟩ := first.of_attempt
    cases same
    exact ⟨before, after, _, rfl, first, second⟩

end

/-- An identity is answered by the server, or the call fails or passes its bound. -/
abbrev KeyAnswer := Option (Except TransportFailureKind AuthResult)

def keyCall : Asked → Option (AgentIdentity × KeyAnswer)
  | ⟨_, .call _ (.authenticateAgentKey _ identity _), answer, _⟩ => some (identity, answer)
  | _ => none

/-- The identities that were offered, with what came of each. -/
def keyCalls (asked : List Asked) : List (AgentIdentity × KeyAnswer) := asked.filterMap keyCall

def isInteractiveStart (a : Asked) : Bool :=
  match a.op with
  | .call _ (.interactiveStart _) => true
  | _ => false

def Rejected (call : AgentIdentity × KeyAnswer) : Prop := ∃ r, call.2 = some (.ok r) ∧ r ≠ .success

/-- How the loop over the identities ends. -/
inductive Offered (offerable : List AgentIdentity) (last : Option AuthResult) :
    List (AgentIdentity × KeyAnswer) → Except ConnectFailure AuthResult → Prop
  | none_ (empty : offerable = []) (none_ : last = none) (failure : ConnectFailure) : Offered offerable last [] (.error failure)
  | exhausted (calls : List (AgentIdentity × KeyAnswer)) (r : AuthResult) (all : calls.map Prod.fst = offerable)
      (rejected : ∀ call ∈ calls, Rejected call) (lastAnswer : (calls.map Prod.snd).getLast?.getD (last.map .ok) = some (.ok r)) :
      Offered offerable last calls (.ok r)
  | accepted (before : List (AgentIdentity × KeyAnswer)) (identity : AgentIdentity) (later : List AgentIdentity)
      (split : offerable = before.map Prod.fst ++ identity :: later) (rejected : ∀ call ∈ before, Rejected call) :
      Offered offerable last (before ++ [(identity, some (.ok .success))]) (.ok .success)
  | broken (before : List (AgentIdentity × KeyAnswer)) (identity : AgentIdentity) (later : List AgentIdentity)
      (answer : KeyAnswer) (failure : ConnectFailure) (split : offerable = before.map Prod.fst ++ identity :: later)
      (rejected : ∀ call ∈ before, Rejected call) (failed : ∀ r, answer ≠ some (.ok r)) :
      Offered offerable last (before ++ [(identity, answer)]) (.error failure)

theorem keyCalls_append (before after : List Asked) : keyCalls (before ++ after) = keyCalls before ++ keyCalls after :=
  List.filterMap_append

theorem Offered.rejected {offerable : List AgentIdentity} {last : Option AuthResult}
    {calls : List (AgentIdentity × KeyAnswer)} {result : Except ConnectFailure AuthResult} {r : AuthResult}
    (rejected : r ≠ .success) (offered : Offered offerable (some r) calls result) (identity : AgentIdentity) :
    Offered (identity :: offerable) last ((identity, some (.ok r)) :: calls) result := by
  have first : Rejected (identity, some (.ok r)) := ⟨r, rfl, rejected⟩
  cases offered with
  | none_ empty none_ => cases none_
  | exhausted _ r' all others lastAnswer =>
    refine .exhausted _ r' ?_ (List.forall_mem_cons.mpr ⟨first, others⟩) ?_
    · rw [List.map_cons, all]
    · rw [List.map_cons, List.getLast?_cons]
      exact lastAnswer
  | accepted before accepted later split others =>
    refine .accepted (_ :: before) accepted later ?_ (List.forall_mem_cons.mpr ⟨first, others⟩)
    rw [split, List.map_cons, List.cons_append]
  | broken before failed later answer failure split others failing =>
    refine .broken (_ :: before) failed later answer failure ?_ (List.forall_mem_cons.mpr ⟨first, others⟩) failing
    rw [split, List.map_cons, List.cons_append]

theorem Offered.failed (identity : AgentIdentity) (later : List AgentIdentity) (last : Option AuthResult) {answer : KeyAnswer}
    (failed : ∀ r, answer ≠ some (.ok r)) (failure : ConnectFailure) :
    Offered (identity :: later) last [(identity, answer)] (.error failure) :=
  .broken [] identity later answer failure rfl (by simp) failed

theorem runs_offerIdentities {settings : ConnectionSettings} {handshakeTimeout : Nat} {support : Option (Option HashAlg)}
    {identities : List AgentIdentity} {last : Option AuthResult} {asked : List Asked} {result : Except ConnectFailure AuthResult}
    (run : Runs (offerIdentities settings handshakeTimeout support identities last) asked result) :
    Offered (identities.filter fun identity => (identityHash support identity).isSome) last (keyCalls asked) result ∧
      ∀ a ∈ asked, (keyCall a).isSome = true := by
  induction identities generalizing last asked with
  | nil =>
    cases last with
    | none =>
      obtain ⟨rfl, rfl⟩ := runs_throw.mp run
      exact ⟨.none_ rfl rfl _, by simp⟩
    | some r =>
      obtain ⟨rfl, rfl⟩ := runs_pure.mp run
      exact ⟨.exhausted [] r rfl (by simp) rfl, by simp⟩
  | cons identity identities ih =>
    unfold offerIdentities at run
    cases hash : identityHash support identity with
    | none =>
      rw [hash] at run
      rw [List.filter_cons_of_neg (by simp [hash])]
      exact ih run
    | some chosen =>
      rw [hash] at run
      rw [List.filter_cons_of_pos (by simp [hash])]
      obtain ⟨(answer : KeyAnswer), rest, rfl, ended⟩ := runs_bounded.mp run
      clear run
      have only : ∀ {rest : List Asked}, (∀ a ∈ rest, (keyCall a).isSome = true) →
          ∀ a ∈ answered (.call handshakeTimeout (.authenticateAgentKey settings.username identity chosen)) answer :: rest,
            (keyCall a).isSome = true := fun others => List.forall_mem_cons.mpr ⟨rfl, others⟩
      rcases answer with _ | error | r
      · obtain ⟨rfl, rfl⟩ := runs_throw.mp ended
        exact ⟨.failed identity _ last (by simp) _, only (by simp)⟩
      · obtain ⟨rfl, rfl⟩ := runs_throw.mp ended
        exact ⟨.failed identity _ last (by simp) _, only (by simp)⟩
      · change Runs (if r = .success then _ else _) rest result at ended
        split_ifs at ended with accepted
        · obtain ⟨rfl, rfl⟩ := runs_pure.mp ended
          subst accepted
          exact ⟨.accepted [] identity _ rfl (by simp), only (by simp)⟩
        · obtain ⟨offered, others⟩ := ih ended
          exact ⟨offered.rejected accepted identity, only others⟩

def listing : Asked → Option (List AgentIdentity)
  | ⟨_, .call _ .requestIdentities, some (.ok identities), _⟩ => some identities
  | _ => none

def negotiated : Asked → Option (Option (Option HashAlg))
  | ⟨_, .call _ .bestSupportedRsaHash, some (.ok support), _⟩ => some support
  | _ => none

def offerable (support : Option (Option HashAlg)) (identities : List AgentIdentity) : List AgentIdentity :=
  identities.filter fun identity => (identityHash support identity).isSome

theorem keyCall_only {a : Asked} (h : (keyCall a).isSome = true) :
    isInteractiveStart a = false ∧ listing a = none ∧ negotiated a = none := by
  unfold keyCall at h
  split at h
  · exact ⟨rfl, rfl, rfl⟩
  · cases h

/-- The identities that the agent listed are offered in its order, and all of them while the server turns them down. -/
def OfferedInOrder (asked : List Asked) : Prop :=
  ∀ identities ∈ asked.filterMap listing, ∀ support ∈ asked.filterMap negotiated,
    (keyCalls asked).map Prod.fst <+: offerable support identities ∧
      ((∀ call ∈ keyCalls asked, Rejected call) → (keyCalls asked).map Prod.fst = offerable support identities)

theorem Offered.order {identities : List AgentIdentity} {last : Option AuthResult}
    {calls : List (AgentIdentity × KeyAnswer)} {result : Except ConnectFailure AuthResult}
    (offered : Offered identities last calls result) : calls.map Prod.fst <+: identities ∧
      ((∀ call ∈ calls, Rejected call) → calls.map Prod.fst = identities) := by
  cases offered with
  | none_ empty => exact ⟨List.nil_prefix, fun _ => empty.symm⟩
  | exhausted _ r all => exact ⟨all ▸ List.prefix_rfl, fun _ => all⟩
  | accepted before identity later split =>
    refine ⟨⟨later, by simp [split]⟩, ?_⟩
    intro all
    obtain ⟨r, same, different⟩ := all _ (List.mem_append_right _ List.mem_cons_self)
    cases same
    exact absurd rfl different
  | broken before identity later answer failure split _ failed =>
    refine ⟨⟨later, by simp [split]⟩, ?_⟩
    intro all
    obtain ⟨r, same, _⟩ := all _ (List.mem_append_right _ List.mem_cons_self)
    exact absurd same (failed r)

/-- How the sign-in with an agent ends: what was answered last decides. -/
structure AgentEnd (asked : List Asked) (result : Except ConnectFailure AuthResult) : Prop where
  order : OfferedInOrder asked
  quiet : ∀ a ∈ asked, isInteractiveStart a = false
  accepted : (∃ call ∈ keyCalls asked, call.2 = some (.ok .success)) → result = .ok .success
  lastAnswer : ∀ r, result = .ok r ↔ ((keyCalls asked).map Prod.snd).getLast? = some (some (.ok r))

theorem Offered.accepted_iff {identities : List AgentIdentity} {calls : List (AgentIdentity × KeyAnswer)}
    {result : Except ConnectFailure AuthResult} (offered : Offered identities none calls result) :
    ((∃ call ∈ calls, call.2 = some (.ok .success)) → result = .ok .success) ∧
      ∀ r, result = .ok r ↔ (calls.map Prod.snd).getLast? = some (some (.ok r)) := by
  cases offered with
  | none_ => exact ⟨fun ⟨_, never, _⟩ => absurd never List.not_mem_nil, fun r => by simp⟩
  | exhausted _ r all rejected lastAnswer =>
    constructor
    · rintro ⟨call, listed, success⟩
      obtain ⟨r', same, different⟩ := rejected call listed
      cases success.symm.trans same
      exact absurd rfl different
    · intro r'
      cases last : (calls.map Prod.snd).getLast? with
      | none => simp [last] at lastAnswer
      | some answer =>
        rw [last, Option.getD_some] at lastAnswer
        rw [lastAnswer, Except.ok.injEq, Option.some.injEq, Option.some.injEq, Except.ok.injEq]
  | accepted before identity later => exact ⟨fun _ => rfl, fun r => by simp⟩
  | broken before identity later answer failure split rejected failed =>
    constructor
    · rintro ⟨call, listed, success⟩
      rcases List.mem_append.mp listed with earlier | last
      · obtain ⟨r', same, different⟩ := rejected call earlier
        cases success.symm.trans same
        exact absurd rfl different
      · rw [List.mem_singleton.mp last] at success
        exact absurd success (failed _)
    · intro r
      simpa using failed r

theorem AgentEnd.failed {asked : List Asked} (failure : ConnectFailure) (unoffered : keyCalls asked = [])
    (unsettled : asked.filterMap negotiated = []) (quiet : ∀ a ∈ asked, isInteractiveStart a = false) :
    AgentEnd asked (.error failure) where
  order identities _ support negotiated_ := absurd negotiated_ (unsettled ▸ List.not_mem_nil)
  quiet := quiet
  accepted := by
    rintro ⟨call, offered, _⟩
    rw [unoffered] at offered
    exact absurd offered List.not_mem_nil
  lastAnswer r := by simp [unoffered]

theorem runs_authenticateSshAgent {settings : ConnectionSettings} {handshakeTimeout : Nat} {socketPath : Option String}
    {asked : List Asked} {result : Except ConnectFailure AuthResult}
    (run : Runs (authenticateSshAgent settings handshakeTimeout socketPath) asked result) : AgentEnd asked result := by
  obtain ⟨(socket : Option (Except TransportFailureKind Unit)), rest, rfl, connected⟩ := runs_bounded.mp run
  clear run
  rcases socket with _ | error | _
  · obtain ⟨rfl, rfl⟩ := runs_throw.mp connected
    exact .failed _ rfl rfl (by simp [isInteractiveStart, answered])
  · obtain ⟨rfl, rfl⟩ := runs_throw.mp connected
    exact .failed _ rfl rfl (by simp [isInteractiveStart, answered])
  obtain ⟨(listed : Option (Except TransportFailureKind (List AgentIdentity))), rest, rfl, continued⟩ := runs_bounded.mp connected
  clear connected
  rcases listed with _ | error | identities
  · obtain ⟨rfl, rfl⟩ := runs_throw.mp continued
    exact .failed _ rfl rfl (by simp [isInteractiveStart, answered])
  · obtain ⟨rfl, rfl⟩ := runs_throw.mp continued
    exact .failed _ rfl rfl (by simp [isInteractiveStart, answered])
  change Runs (if identities = [] then _ else _) rest result at continued
  split_ifs at continued with empty
  · obtain ⟨rfl, rfl⟩ := runs_throw.mp continued
    exact .failed _ rfl rfl (by simp [isInteractiveStart, answered])
  obtain ⟨(support : Option (Except TransportFailureKind (Option (Option HashAlg)))), rest, rfl, offering⟩ :=
    runs_bounded.mp continued
  clear continued
  rcases support with _ | error | support
  · obtain ⟨rfl, rfl⟩ := runs_throw.mp offering
    exact .failed _ rfl rfl (by simp [isInteractiveStart, answered])
  · obtain ⟨rfl, rfl⟩ := runs_throw.mp offering
    exact .failed _ rfl rfl (by simp [isInteractiveStart, answered])
  change Runs (offerIdentities settings handshakeTimeout support identities none) rest result at offering
  obtain ⟨offered, only⟩ := runs_offerIdentities offering
  have unlisted : rest.filterMap listing = [] := List.filterMap_eq_nil_iff.mpr fun a asked => (keyCall_only (only a asked)).2.1
  have unsettled : rest.filterMap negotiated = [] :=
    List.filterMap_eq_nil_iff.mpr fun a asked => (keyCall_only (only a asked)).2.2
  refine ⟨?_, ?_, offered.accepted_iff.1, offered.accepted_iff.2⟩
  · intro others listed other settled
    change others ∈ identities :: rest.filterMap listing at listed
    change other ∈ support :: rest.filterMap negotiated at settled
    rw [unlisted, List.mem_singleton] at listed
    rw [unsettled, List.mem_singleton] at settled
    subst listed settled
    exact offered.order
  · intro a asked
    rcases List.mem_cons.mp asked with rfl | asked
    · rfl
    rcases List.mem_cons.mp asked with rfl | asked
    · rfl
    rcases List.mem_cons.mp asked with rfl | asked
    · rfl
    exact (keyCall_only (only a asked)).1

theorem runs_reporting {asked : List Asked} {result : Except ConnectFailure AuthResult} {p : HandshakeM AuthResult}
    (run : Runs (reportingAuthFailure p) asked result) :
    ∃ before reported r, asked = before ++ reported ∧ Runs p before r ∧ (∀ ok, result = .ok ok ↔ r = .ok ok) ∧
      ∀ a ∈ reported, ∃ reason, a.op = .emitAuthFailed reason := by
  obtain ⟨before, after, r, rfl, first, report⟩ := runs_attempt run
  refine ⟨before, after, r, rfl, first, ?_⟩
  rcases r with failure | r
  · cases failure with
    | authFailed reason =>
      obtain ⟨sent, rest, rfl, thrown⟩ := runs_perform.mp report
      obtain ⟨rfl, rfl⟩ := runs_throw.mp thrown
      exact ⟨by simp, List.forall_mem_singleton.mpr ⟨reason, rfl⟩⟩
    | hostKeyMismatch | trustRejected | trustTimeout | connection =>
      obtain ⟨rfl, rfl⟩ := runs_throw.mp report
      exact ⟨by simp, by simp⟩
  · obtain ⟨rfl, rfl⟩ := runs_pure.mp report
    exact ⟨by simp, by simp⟩

theorem reported_quiet {reported : List Asked} (h : ∀ a ∈ reported, ∃ reason, a.op = .emitAuthFailed reason) :
    keyCalls reported = [] ∧ reported.filterMap listing = [] ∧ reported.filterMap negotiated = [] ∧
      ∀ a ∈ reported, isInteractiveStart a = false := by
  have each : ∀ a ∈ reported, keyCall a = none ∧ listing a = none ∧ negotiated a = none ∧ isInteractiveStart a = false := by
    intro a asked
    obtain ⟨reason, op⟩ := h a asked
    obtain ⟨_, _, answer, _⟩ := a
    subst op
    exact ⟨rfl, rfl, rfl, rfl⟩
  refine ⟨List.filterMap_eq_nil_iff.mpr fun a asked => (each a asked).1, List.filterMap_eq_nil_iff.mpr fun a asked =>
    (each a asked).2.1,
    List.filterMap_eq_nil_iff.mpr fun a asked => (each a asked).2.2.1, fun a asked => (each a asked).2.2.2⟩

theorem AgentEnd.reported {asked reported : List Asked} {r result : Except ConnectFailure AuthResult} (ended : AgentEnd asked r)
    (same : ∀ ok, result = .ok ok ↔ r = .ok ok) (h : ∀ a ∈ reported, ∃ reason, a.op = .emitAuthFailed reason) :
    AgentEnd (asked ++ reported) result := by
  obtain ⟨noCalls, noListing, noSupport, quiet⟩ := reported_quiet h
  have calls : keyCalls (asked ++ reported) = keyCalls asked := by rw [keyCalls_append, noCalls, List.append_nil]
  refine ⟨?_, ?_, ?_, ?_⟩
  · intro identities listed support settled
    rw [List.filterMap_append, noListing, List.append_nil] at listed
    rw [List.filterMap_append, noSupport, List.append_nil] at settled
    rw [calls]
    exact ended.order identities listed support settled
  · exact fun a => List.forall_mem_append.mpr ⟨ended.quiet, quiet⟩ a
  · rw [calls]
    exact fun accepted => (same _).mpr (ended.accepted accepted)
  · intro ok
    rw [calls, same]
    exact ended.lastAnswer ok

/-- What is promised about the agent's keys, in the run of a sign-in. -/
structure KeysHonoured (asked : List Asked) (result : Except ConnectFailure Unit) : Prop where
  order : OfferedInOrder asked
  accepted : (∃ call ∈ keyCalls asked, call.2 = some (.ok .success)) → result = .ok ()
  secondFactor : (∃ call ∈ keyCalls asked, ∃ r, call.2 = some (.ok r) ∧ r.wantsInteractive = true) →
    ∃ a ∈ asked, isInteractiveStart a = true

/-- If the server wants a keyboard-interactive sign-in after some key, then also after the key that was offered last. -/
def PartialComesLast (asked : List Asked) : Prop :=
  (∃ call ∈ keyCalls asked, ∃ r, call.2 = some (.ok r) ∧ r.wantsInteractive = true) →
    ∃ call, (keyCalls asked).getLast? = some call ∧ ∃ r, call.2 = some (.ok r) ∧ r.wantsInteractive = true

section

variable {P : HandshakeOp → Prop} {α β : Type}

theorem uses_bounded {timeout : Nat} {phase : String} {call : Call} {f : Except HandshakePhaseError call.Reply → HandshakeM β}
    (own : P (.call timeout call)) (rest : ∀ reply, Uses P (f reply)) : Uses P (boundedHandshake timeout phase call >>= f) := by
  refine ⟨own, ?_⟩
  rintro (_ | _ | _) <;> exact rest _

theorem uses_orDisconnect {settings : ConnectionSettings} {reply : Except HandshakePhaseError α} {f : α → HandshakeM β}
    (rest : ∀ a, Uses P (f a)) : Uses P (orDisconnect settings reply >>= f) := by
  rcases reply with (_ | _) | a
  · trivial
  · trivial
  · exact rest a

theorem uses_emitAuthFailure {reason : UserFacingError} (own : P (.emitAuthFailed reason)) :
    Uses P (emitAuthFailure reason : HandshakeM α) := ⟨own, fun _ => trivial⟩

end

/-- The operations of a keyboard-interactive sign-in. -/
def IsInteractive : HandshakeOp → Prop
  | .call _ (.interactiveStart _) | .call _ (.interactiveRespond _) | .sendPrompt .. | .awaitPrompt _ | .extendDeadline _
  | .emitAuthFailed _ | .anotherRound => True
  | _ => False

theorem interactive_only {a : Asked} (h : IsInteractive a.op) : keyCall a = none ∧ listing a = none ∧ negotiated a = none := by
  obtain ⟨_, op, answer, _⟩ := a
  cases op with
  | call timeout request => cases request <;> first | exact h.elim | exact ⟨rfl, rfl, rfl⟩
  | _ => exact ⟨rfl, rfl, rfl⟩

theorem uses_interactiveLoop (settings : ConnectionSettings) (handshakeTimeout rounds : Nat) (response : InteractiveResponse) :
    Uses IsInteractive (interactiveLoop settings handshakeTimeout rounds response) := by
  induction rounds generalizing response with
  | zero =>
    cases response with
    | success | failure => trivial
    | infoRequest => exact ⟨trivial, fun never => never.elim⟩
  | succ rounds ih =>
    cases response with
    | success | failure => trivial
    | infoRequest name instructions prompts =>
      refine ⟨trivial, ?_⟩
      rintro (_ | _)
      · exact uses_emitAuthFailure trivial
      refine ⟨trivial, fun _ => ⟨trivial, ?_⟩⟩
      rintro (responses | _ | _)
      · apply uses_ite
        · exact uses_emitAuthFailure trivial
        · exact uses_bounded trivial fun reply => uses_orDisconnect ih
      · exact uses_emitAuthFailure trivial
      · exact uses_emitAuthFailure trivial

theorem uses_authenticateKeyboardInteractive (settings : ConnectionSettings) (handshakeTimeout rounds : Nat) :
    Uses IsInteractive (authenticateKeyboardInteractive settings handshakeTimeout rounds) :=
  uses_bounded trivial fun _ => uses_orDisconnect (uses_interactiveLoop settings handshakeTimeout rounds)

theorem uses_reportSignIn (r : AuthResult) : Uses IsInteractive (reportSignIn r) := by
  cases r with
  | success => trivial
  | failure => exact uses_emitAuthFailure trivial

theorem runs_secondFactor {settings : ConnectionSettings} {handshakeTimeout rounds : Nat} {asked : List Asked}
    {result : Except ConnectFailure Unit} (run : Runs (authenticate settings handshakeTimeout rounds) asked result) :
    ∃ before after first, asked = before ++ after ∧ Runs (authenticateWith settings handshakeTimeout rounds) before first ∧
      (∀ a ∈ after, IsInteractive a.op) ∧ (first = .ok .success → result = .ok ()) ∧
      ((∃ a ∈ after, isInteractiveStart a = true) ↔
        ∃ r, first = .ok r ∧ settings.auth ≠ .keyboardInteractive ∧ r.wantsInteractive = true) := by
  rcases run.of_bind with ⟨failure, failed, rfl⟩ | ⟨before, after, _, first, rfl, credential, later⟩
  · exact ⟨asked, [], .error failure, by simp, failed, by simp, nofun, by simp⟩
  refine ⟨before, after, .ok first, rfl, credential, ?_⟩
  by_cases wanted : settings.auth ≠ .keyboardInteractive ∧ first.wantsInteractive = true
  · rw [if_pos wanted] at later
    refine ⟨fun a asked => (later.uses ((uses_authenticateKeyboardInteractive _ _ _).bind uses_reportSignIn) a asked).1, ?_, ?_⟩
    · rintro ⟨⟩
      cases wanted.2
    · obtain ⟨answer, rest, rfl, _⟩ := runs_ask.mp later
      exact iff_of_true ⟨_, List.mem_cons_self, rfl⟩ ⟨first, rfl, wanted⟩
  · rw [if_neg wanted] at later
    refine ⟨fun a asked => (later.uses (uses_reportSignIn first) a asked).1, ?_, ?_⟩
    · rintro ⟨⟩
      exact (runs_pure.mp later).2
    · refine iff_of_false ?_ ?_
      · rintro ⟨a, asked, starts⟩
        cases first with
        | success =>
          rw [(runs_pure.mp later).1] at asked
          exact absurd asked List.not_mem_nil
        | failure methods partial_ =>
          obtain ⟨sent, rest, rfl, thrown⟩ := runs_perform.mp later
          rw [(runs_throw.mp thrown).1, List.mem_singleton] at asked
          subst asked
          cases starts
      · rintro ⟨r, ⟨⟩, wants⟩
        exact wanted wants

theorem AgentEnd.later {before after : List Asked} {first : Except ConnectFailure AuthResult} (ended : AgentEnd before first)
    (interactive : ∀ a ∈ after, IsInteractive a.op) :
    keyCalls (before ++ after) = keyCalls before ∧ OfferedInOrder (before ++ after) := by
  have noCalls : keyCalls after = [] :=
    List.filterMap_eq_nil_iff.mpr fun a asked => (interactive_only (interactive a asked)).1
  have noListing : after.filterMap listing = [] :=
    List.filterMap_eq_nil_iff.mpr fun a asked => (interactive_only (interactive a asked)).2.1
  have noSupport : after.filterMap negotiated = [] :=
    List.filterMap_eq_nil_iff.mpr fun a asked => (interactive_only (interactive a asked)).2.2
  have calls : keyCalls (before ++ after) = keyCalls before := by rw [keyCalls_append, noCalls, List.append_nil]
  refine ⟨calls, ?_⟩
  intro identities listed support settled
  rw [List.filterMap_append, noListing, List.append_nil] at listed
  rw [List.filterMap_append, noSupport, List.append_nil] at settled
  rw [calls]
  exact ended.order identities listed support settled

theorem keysHonoured_iff (settings : ConnectionSettings) (handshakeTimeout rounds : Nat) (socketPath : Option String)
    (agent : settings.auth = .sshAgent socketPath) (asked : List Asked) (result : Except ConnectFailure Unit)
    (run : Runs (authenticate settings handshakeTimeout rounds) asked result) :
    KeysHonoured asked result ↔ PartialComesLast asked := by
  obtain ⟨before, after, first, rfl, credential, interactive, success, starts⟩ := runs_secondFactor run
  have ended : AgentEnd before first := by
    unfold authenticateWith at credential
    rw [agent] at credential
    obtain ⟨keys, reported, r, rfl, agentRun, same, only⟩ := runs_reporting credential
    exact (runs_authenticateSshAgent agentRun).reported same only
  obtain ⟨calls, order⟩ := ended.later interactive
  have last : (∃ call, (keyCalls (before ++ after)).getLast? = some call ∧ ∃ r, call.2 = some (.ok r) ∧ r.wantsInteractive = true) ↔
      ∃ a ∈ before ++ after, isInteractiveStart a = true := by
    have own : settings.auth ≠ .keyboardInteractive := by simp [agent]
    have quiet : ∀ a ∈ before, ¬ isInteractiveStart a = true := by simpa using ended.quiet
    have started : (∃ a ∈ before ++ after, isInteractiveStart a = true) ↔ ∃ r, first = .ok r ∧ r.wantsInteractive = true := by
      simp only [List.mem_append, or_and_right, exists_or, starts, own, ne_eq, not_false_eq_true, true_and]
      exact or_iff_right fun ⟨a, asked, start⟩ => quiet a asked start
    rw [started, calls]
    simp only [ended.lastAnswer, List.getLast?_map, Option.map_eq_some_iff]
    constructor
    · rintro ⟨call, isLast, r, answer, wants⟩
      exact ⟨r, ⟨call, isLast, answer⟩, wants⟩
    · rintro ⟨r, ⟨call, isLast, answer⟩, wants⟩
      exact ⟨call, isLast, r, answer, wants⟩
  constructor
  · intro honoured asked
    exact last.mpr (honoured.secondFactor asked)
  · intro position
    refine ⟨order, ?_, fun asked => last.mp (position asked)⟩
    intro accepted
    rw [calls] at accepted
    exact success (ended.accepted accepted)

def agentSettings : ConnectionSettings := ⟨"host", 22, "user", .sshAgent none, .direct⟩

/-- The answers about two keys of an agent: the one, and then the other. -/
def twoKeys (first second : AgentIdentity × AuthResult) : List Asked :=
  [answered (.call 0 (.connectAgent none)) (some (.ok ())),
    answered (.call 0 .requestIdentities) (some (.ok [first.1, second.1])),
    answered (.call 0 .bestSupportedRsaHash) (some (.ok none)),
    answered (.call 0 (.authenticateAgentKey "user" first.1 none)) (some (.ok first.2)),
    answered (.call 0 (.authenticateAgentKey "user" second.1 none)) (some (.ok second.2))]

def otherKey : AgentIdentity × AuthResult := (⟨"other", false, false⟩, .failure [.publicKey] false)

/-- A key that is accepted as the first of two factors. -/
def acceptedKey : AgentIdentity × AuthResult := (⟨"accepted", false, false⟩, .failure [.keyboardInteractive] true)

def startAnswered : Asked := answered (.call 0 (.interactiveStart "user")) (some (.ok InteractiveResponse.success))

theorem keysHonoured_last : KeysHonoured (twoKeys otherKey acceptedKey ++ [startAnswered]) (.ok ()) := by
  apply (keysHonoured_iff agentSettings 0 0 none rfl (twoKeys otherKey acceptedKey ++ [startAnswered]) (.ok ()) ?_).mpr
  · exact fun _ => ⟨_, rfl, _, rfl, rfl⟩
  · exact .ask trivial trivial (.ask trivial trivial (.ask trivial trivial (.ask trivial trivial (.ask trivial trivial
      (.ask trivial trivial (.done _ _))))))

def rejectedReport : Asked :=
  answered (.emitAuthFailed ⟨.authFailed, "Sign-In Failed", "The server rejected your sign-in details.", none, false⟩) true

/-- The accepted key comes first, and another key after it is turned down: the sign-in fails without the second factor. -/
theorem accepted_key_forgotten :
    Runs (authenticate agentSettings 0 0) (twoKeys acceptedKey otherKey ++ [rejectedReport])
        (.error (.authFailed ⟨.authFailed, "Sign-In Failed", "The server rejected your sign-in details.", none, false⟩)) ∧
      ¬ KeysHonoured (twoKeys acceptedKey otherKey ++ [rejectedReport])
        (.error (.authFailed ⟨.authFailed, "Sign-In Failed", "The server rejected your sign-in details.", none, false⟩)) := by
  constructor
  · exact .ask trivial trivial (.ask trivial trivial (.ask trivial trivial (.ask trivial trivial (.ask trivial trivial
      (.ask trivial trivial (.done _ _))))))
  · intro honoured
    obtain ⟨a, asked, start⟩ := honoured.secondFactor ⟨acceptedKey.map id (some ∘ .ok), List.mem_cons_self, _, rfl, rfl⟩
    have unstarted : ∀ a ∈ twoKeys acceptedKey otherKey ++ [rejectedReport], isInteractiveStart a = false := by decide
    rw [unstarted a asked] at start
    cases start

end MacSftp.Handshake
