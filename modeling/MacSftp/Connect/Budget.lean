import MacSftp.Connect.Attempt
import Mathlib.Tactic.Ring

namespace MacSftp.Handshake

open Lib Program

/-- The time the code gives to an operation. -/
def HandshakeOp.bound : HandshakeOp → Nat
  | .call timeout _ | .awaitPrompt timeout => timeout
  | _ => 0

/-- What an operation adds to the deadline of its attempt. -/
def HandshakeOp.extension : HandshakeOp → Nat
  | .extendDeadline duration => duration
  | _ => 0

def HandshakeOp.calls : HandshakeOp → Nat
  | .call .. => 1
  | _ => 0

def Call.isSetup : Call → Bool
  | .connectTcp .. | .connectStream .. | .openDirectTcpip .. | .openSession | .requestSubsystem | .startSftp
  | .canonicalizeHome => true
  | _ => false

def Call.isTrustPrompt : Call → Bool
  | .connectStreamAfterPrompt .. => true
  | _ => false

def HandshakeOp.setupSteps : HandshakeOp → Nat
  | .call _ request => if request.isSetup then 1 else 0
  | _ => 0

def HandshakeOp.trustPrompts : HandshakeOp → Nat
  | .call _ request => if request.isTrustPrompt then 1 else 0
  | _ => 0

/-- The requests of a sign-in: passwords and keys, the agent's socket, its listing and each of its keys, the hash negotiation,
and the start and the rounds of a keyboard-interactive sign-in. -/
def HandshakeOp.signInRequests : HandshakeOp → Nat
  | .call _ request => if request.isSetup || request.isTrustPrompt then 0 else 1
  | _ => 0

theorem calls_split (asked : List Asked) :
    total HandshakeOp.calls asked =
      total HandshakeOp.setupSteps asked + total HandshakeOp.trustPrompts asked + total HandshakeOp.signInRequests asked := by
  induction asked with
  | nil => rfl
  | cons a asked ih =>
    have own : a.op.calls = a.op.setupSteps + a.op.trustPrompts + a.op.signInRequests := by
      cases a.op with
      | call timeout request => cases request <;> rfl
      | _ => rfl
    rw [Program.total_cons, Program.total_cons, Program.total_cons, Program.total_cons, ih, own]
    omega

/-- The bounds add up to one handshake bound for each call, to the extensions, and to `owed`, which has been added to the
deadline before; and no more than `steps` steps of the setup are taken. -/
structure Within (handshakeTimeout steps owed : Nat) (asked : List Asked) : Prop where
  bounds : total HandshakeOp.bound asked =
    handshakeTimeout * total HandshakeOp.calls asked + total HandshakeOp.extension asked + owed
  steps : total HandshakeOp.setupSteps asked ≤ steps

abbrev Keeps {α : Type} (handshakeTimeout steps owed : Nat) (p : HandshakeM α) : Prop :=
  Leaves (fun _ _ => True) (fun _ _ _ _ => True) (Within handshakeTimeout steps owed) p

section

variable {handshakeTimeout steps more owed : Nat} {α β : Type}

theorem Within.nil : Within handshakeTimeout steps 0 [] := ⟨rfl, Nat.zero_le _⟩

theorem Within.append {before after : List Asked} (first : Within handshakeTimeout steps 0 before)
    (second : Within handshakeTimeout more 0 after) : Within handshakeTimeout (steps + more) 0 (before ++ after) := by
  refine ⟨?_, ?_⟩
  · rw [Program.total_append, Program.total_append, Program.total_append, first.bounds, second.bounds]
    ring
  · rw [Program.total_append]
    exact Nat.add_le_add first.steps second.steps

theorem Keeps.bind {p : HandshakeM α} {f : α → HandshakeM β} (first : Keeps handshakeTimeout steps 0 p)
    (rest : ∀ a, Keeps handshakeTimeout more 0 (f a)) : Keeps handshakeTimeout (steps + more) 0 (p >>= f) :=
  Leaves.bind first rest (fun _ _ => Within.append) .nil

theorem keeps_done {r : Except ConnectFailure α} : Keeps handshakeTimeout steps 0 (done r) := leaves_done .nil

theorem keeps_free {op : HandshakeOp} {next : op.Answer → HandshakeM α} (bound : op.bound = 0) (extension : op.extension = 0)
    (calls : op.calls = 0) (setup : op.setupSteps = 0) (rest : ∀ answer, Keeps handshakeTimeout steps owed (next answer)) :
    Keeps handshakeTimeout steps owed (ask op next) := by
  refine leaves_ask ?_ rest
  intro answer before after asked within
  refine ⟨?_, ?_⟩
  · rw [Program.total_cons, Program.total_cons, Program.total_cons, bound, extension, calls, within.bounds]
    ring
  · rw [Program.total_cons, setup]
    exact (Nat.zero_add _).le.trans within.steps

theorem keeps_extend {duration : Nat} {next : Unit → HandshakeM α} (rest : ∀ a, Keeps handshakeTimeout steps duration (next a)) :
    Keeps handshakeTimeout steps 0 (ask (.extendDeadline duration) next) := by
  refine leaves_ask ?_ rest
  intro answer before after asked within
  refine ⟨?_, ?_⟩
  · simp only [Program.total_cons, HandshakeOp.bound, HandshakeOp.calls, HandshakeOp.extension, within.bounds]
    ring
  · simpa [HandshakeOp.setupSteps] using within.steps

theorem keeps_await {next : PromptAnswer → HandshakeM α} (rest : ∀ a, Keeps handshakeTimeout steps 0 (next a)) :
    Keeps handshakeTimeout steps owed (ask (.awaitPrompt owed) next) := by
  refine leaves_ask ?_ rest
  intro answer before after asked within
  refine ⟨?_, ?_⟩
  · simp only [Program.total_cons, HandshakeOp.bound, HandshakeOp.calls, HandshakeOp.extension, within.bounds]
    ring
  · simpa [HandshakeOp.setupSteps] using within.steps

theorem keeps_call {call : Call} {next : (HandshakeOp.call (handshakeTimeout + owed) call).Answer → HandshakeM α}
    (rest : ∀ a, Keeps handshakeTimeout steps 0 (next a)) :
    Keeps handshakeTimeout ((if call.isSetup then 1 else 0) + steps) owed (ask (.call (handshakeTimeout + owed) call) next) := by
  refine leaves_ask ?_ rest
  intro answer before after asked within
  refine ⟨?_, ?_⟩
  · simp only [Program.total_cons, HandshakeOp.bound, HandshakeOp.calls, HandshakeOp.extension, within.bounds]
    ring
  · exact Nat.add_le_add_left within.steps _

theorem keeps_bounded {phase : String} {call : Call} {f : Except HandshakePhaseError call.Reply → HandshakeM β}
    (rest : ∀ reply, Keeps handshakeTimeout steps 0 (f reply)) :
    Keeps handshakeTimeout ((if call.isSetup then 1 else 0) + steps) 0 (boundedHandshake handshakeTimeout phase call >>= f) := by
  change Keeps _ _ 0 (ask (.call (handshakeTimeout + 0) call) _)
  apply keeps_call
  rintro (_ | _ | _) <;> exact rest _

theorem keeps_signIn {phase : String} {call : Call} {f : Except HandshakePhaseError call.Reply → HandshakeM β}
    (signIn : call.isSetup = false) (rest : ∀ reply, Keeps handshakeTimeout steps 0 (f reply)) :
    Keeps handshakeTimeout steps 0 (boundedHandshake handshakeTimeout phase call >>= f) := by
  have kept : Keeps handshakeTimeout (_ + steps) 0 (boundedHandshake handshakeTimeout phase call >>= f) := keeps_bounded rest
  rwa [signIn, if_neg (by decide), Nat.zero_add] at kept

theorem keeps_orDisconnect {settings : ConnectionSettings} {reply : Except HandshakePhaseError α} {f : α → HandshakeM β}
    (rest : ∀ a, Keeps handshakeTimeout steps 0 (f a)) : Keeps handshakeTimeout steps 0 (orDisconnect settings reply >>= f) := by
  rcases reply with (_ | _) | a
  · exact keeps_done
  · exact keeps_done
  · exact rest a

theorem keeps_orAuthFailed {title message : String} {reply : Except HandshakePhaseError α} {f : α → HandshakeM β}
    (rest : ∀ a, Keeps handshakeTimeout steps 0 (f a)) :
    Keeps handshakeTimeout steps 0 (orAuthFailed title message reply >>= f) := by
  rcases reply with (_ | _) | a
  · exact keeps_done
  · exact keeps_done
  · exact rest a

theorem keeps_emitAuthFailure {reason : UserFacingError} :
    Keeps handshakeTimeout steps 0 (emitAuthFailure reason : HandshakeM α) :=
  keeps_free rfl rfl rfl rfl fun _ => keeps_done

theorem keeps_ite {c : Prop} [Decidable c] {p q : HandshakeM α} (hp : Keeps handshakeTimeout steps owed p)
    (hq : Keeps handshakeTimeout steps owed q) : Keeps handshakeTimeout steps owed (if c then p else q) := by
  by_cases h : c
  · rwa [if_pos h]
  · rwa [if_neg h]

variable (settings : ConnectionSettings)

theorem keeps_interactiveLoop (rounds : Nat) (response : InteractiveResponse) :
    Keeps handshakeTimeout steps 0 (interactiveLoop settings handshakeTimeout rounds response) := by
  induction rounds generalizing response with
  | zero =>
    cases response with
    | success | failure => exact keeps_done
    | infoRequest => exact keeps_free rfl rfl rfl rfl fun never => never.elim
  | succ rounds ih =>
    cases response with
    | success | failure => exact keeps_done
    | infoRequest name instructions prompts =>
      apply keeps_free rfl rfl rfl rfl
      rintro (_ | _)
      · exact keeps_emitAuthFailure
      apply keeps_extend
      intro _
      apply keeps_await
      rintro (responses | _ | _)
      · apply keeps_ite
        · exact keeps_emitAuthFailure
        · exact keeps_signIn rfl fun reply => keeps_orDisconnect ih
      · exact keeps_emitAuthFailure
      · exact keeps_emitAuthFailure

theorem keeps_authenticateKeyboardInteractive (rounds : Nat) :
    Keeps handshakeTimeout steps 0 (authenticateKeyboardInteractive settings handshakeTimeout rounds) :=
  keeps_signIn rfl fun _ => keeps_orDisconnect (keeps_interactiveLoop settings rounds)

theorem keeps_offerIdentities (support : Option (Option HashAlg)) (identities : List AgentIdentity) (last : Option AuthResult) :
    Keeps handshakeTimeout steps 0 (offerIdentities settings handshakeTimeout support identities last) := by
  induction identities generalizing last with
  | nil => cases last <;> exact keeps_done
  | cons identity identities ih =>
    unfold offerIdentities
    cases identityHash support identity with
    | none => exact ih last
    | some hash =>
      apply keeps_signIn rfl
      intro reply
      apply keeps_orAuthFailed
      intro r
      exact keeps_ite keeps_done (ih (some r))

theorem keeps_authenticateSshAgent (socketPath : Option String) :
    Keeps handshakeTimeout steps 0 (authenticateSshAgent settings handshakeTimeout socketPath) := by
  apply keeps_signIn rfl
  intro socket
  apply keeps_orAuthFailed
  intro _
  apply keeps_signIn rfl
  intro listing
  apply keeps_orAuthFailed
  intro identities
  apply keeps_ite
  · exact keeps_done
  · apply keeps_signIn rfl
    intro support
    apply keeps_orDisconnect
    intro rsaHashSupport
    exact keeps_offerIdentities settings rsaHashSupport identities none

theorem keeps_authenticateRsaPrivateKey (key : PrivateKey) :
    Keeps handshakeTimeout steps 0 (authenticateRsaPrivateKey settings handshakeTimeout key) := by
  have signIn : ∀ hash, Keeps handshakeTimeout steps 0 (authenticateRsaPrivateKey.signIn settings handshakeTimeout key hash) := by
    intro hash
    apply keeps_ite
    · exact keeps_done
    · apply keeps_signIn rfl
      rintro ((_ | _) | _) <;> exact keeps_done
  apply keeps_signIn rfl
  intro support
  apply keeps_orDisconnect
  rintro (_ | _ | _ | _ | _)
  · exact signIn .sha512
  · exact keeps_done
  · exact signIn .sha256
  · exact signIn .sha512
  · exact keeps_done

theorem keeps_reportingAuthFailure {p : HandshakeM α} (h : Keeps handshakeTimeout steps 0 p) :
    Keeps handshakeTimeout steps 0 (reportingAuthFailure p) := by
  change Keeps _ (steps + 0) 0 (p.attempt >>= _)
  apply Keeps.bind (Leaves.attempt h)
  rintro (failure | a)
  · cases failure with
    | authFailed reason => exact keeps_emitAuthFailure
    | hostKeyMismatch | trustRejected | trustTimeout | connection => exact keeps_done
  · exact keeps_done

theorem keeps_authenticateWith (rounds : Nat) :
    Keeps handshakeTimeout steps 0 (authenticateWith settings handshakeTimeout rounds) := by
  unfold authenticateWith
  cases settings.auth with
  | password password =>
    apply keeps_signIn rfl
    rintro ((_ | _) | _) <;> exact keeps_done
  | privateKey keyPath passphrase =>
    apply keeps_free rfl rfl rfl rfl
    rintro (_ | key)
    · exact keeps_emitAuthFailure
    · apply keeps_ite
      · exact keeps_reportingAuthFailure (keeps_authenticateRsaPrivateKey settings key)
      · apply keeps_signIn rfl
        rintro ((_ | _) | _) <;> exact keeps_done
  | keyboardInteractive => exact keeps_authenticateKeyboardInteractive settings rounds
  | sshAgent socketPath => exact keeps_reportingAuthFailure (keeps_authenticateSshAgent settings socketPath)

theorem keeps_reportSignIn (r : AuthResult) : Keeps handshakeTimeout steps 0 (reportSignIn r) := by
  cases r with
  | success => exact keeps_done
  | failure => exact keeps_emitAuthFailure

theorem keeps_authenticate (rounds : Nat) :
    Keeps handshakeTimeout 0 0 (authenticate settings handshakeTimeout rounds) := by
  change Keeps _ (0 + 0) 0 (_ >>= _)
  refine Keeps.bind (keeps_authenticateWith settings rounds) fun first => ?_
  apply keeps_ite
  · change Keeps _ (0 + 0) 0 (_ >>= reportSignIn)
    exact Keeps.bind (keeps_authenticateKeyboardInteractive settings rounds) keeps_reportSignIn
  · exact keeps_reportSignIn first

theorem keeps_orFail {failure : UserFacingError} {reply : Except HandshakePhaseError α} {f : α → HandshakeM β}
    (rest : ∀ a, Keeps handshakeTimeout steps 0 (f a)) : Keeps handshakeTimeout steps 0 (orFail failure reply >>= f) := by
  rcases reply with (_ | _) | a
  · exact keeps_done
  · exact keeps_done
  · exact rest a

end

section

variable (settings : ConnectionSettings) (config : HostTrustConfig) (rounds : Nat)

theorem keeps_boundedHandshakeWithTrustPrompt (phase host : String) (port : Nat) :
    Keeps config.handshakeTimeout 1 0
      (boundedHandshakeWithTrustPrompt config.handshakeTimeout config.trustPromptTimeout phase host port) := by
  change Keeps _ (1 + 0) 0 _
  apply keeps_bounded
  rintro (_ | _ | _)
  · exact keeps_done
  · exact keeps_done
  · apply keeps_extend
    intro _
    change Keeps _ (0 + 0) _ (ask (.call (config.handshakeTimeout + config.trustPromptTimeout) _) _)
    apply keeps_call
    rintro (_ | _ | _) <;> exact keeps_done

theorem keeps_establishOnStream : Keeps config.handshakeTimeout 1 0 (establishOnStream settings config rounds) := by
  change Keeps _ (1 + 0) 0 _
  apply Keeps.bind (keeps_boundedHandshakeWithTrustPrompt config _ _ _)
  rintro ((_ | _) | _)
  · exact keeps_done
  · exact keeps_free rfl rfl rfl rfl fun _ => keeps_done
  · exact keeps_authenticate settings rounds

theorem keeps_connectTcpStream : Keeps config.handshakeTimeout 1 0 (connectTcpStream settings config) := by
  change Keeps _ (1 + 0) 0 _
  apply keeps_bounded
  rintro ((_ | _) | _) <;> exact keeps_done

theorem keeps_establishPhysicalConnection :
    Keeps config.handshakeTimeout (setupPhases settings.route - 4) 0 (establishPhysicalConnection settings config rounds) := by
  apply keeps_ite
  · exact keeps_done
  apply keeps_ite
  · exact keeps_done
  cases settings.route with
  | direct =>
    change Keeps _ (1 + 1) 0 (_ >>= _)
    exact Keeps.bind (keeps_connectTcpStream settings config) fun _ => keeps_establishOnStream settings config rounds
  | proxyCommand command =>
    apply keeps_free rfl rfl rfl rfl
    rintro (_ | _)
    · exact keeps_done
    · exact keeps_establishOnStream settings config rounds
  | jumpHost jump =>
    dsimp only
    cases jump.route with
    | proxyCommand | jumpHost => exact keeps_done
    | direct =>
      change Keeps _ (1 + (1 + (1 + 1))) 0 (_ >>= _)
      refine Keeps.bind (keeps_connectTcpStream jump config) fun _ => ?_
      refine Keeps.bind (keeps_establishOnStream jump config rounds) fun _ => ?_
      apply keeps_bounded
      intro channel
      apply keeps_orFail
      intro _
      exact keeps_establishOnStream settings config rounds

theorem setupPhases_ge (route : ResolvedConnectionRoute) : 4 ≤ setupPhases route := by
  cases route <;> simp [setupPhases]

theorem keeps_attempt : Keeps config.handshakeTimeout (setupPhases settings.route) 0 (attempt settings config rounds) := by
  have enough : setupPhases settings.route = setupPhases settings.route - 4 + (1 + (1 + (1 + (1 + 0)))) := by
    have := setupPhases_ge settings.route
    omega
  rw [enough]
  refine Keeps.bind (keeps_establishPhysicalConnection settings config rounds) fun _ => ?_
  refine keeps_bounded fun channel => keeps_orFail fun _ => ?_
  refine keeps_bounded fun subsystem => keeps_orFail fun _ => ?_
  refine keeps_bounded fun sftp => keeps_orFail fun _ => ?_
  apply keeps_bounded
  rintro ((_ | _) | _) <;> exact keeps_done

theorem computeAttemptPeerBudget_eq (handshakeTimeout : Nat) :
    computeAttemptPeerBudget settings handshakeTimeout =
      handshakeTimeout * (setupPhases settings.route + signInPhases settings) := by
  unfold computeAttemptPeerBudget setupPhases signInPhases
  cases settings.route <;> dsimp only <;> congr 1 <;> omega

/-- The bounds of all that the attempt has done fit in its budget with the extensions. -/
def Covered (asked : List Asked) : Prop :=
  total HandshakeOp.bound asked ≤ computeAttemptPeerBudget settings config.handshakeTimeout + total HandshakeOp.extension asked

/-- The sign-ins take no more requests than the budget counts for them, where a prompt for trust takes one too, and what the
attempt has not reached of the setup can be used up. -/
def RequestsFit (asked : List Asked) : Prop :=
  total HandshakeOp.signInRequests asked + total HandshakeOp.trustPrompts asked ≤
    signInPhases settings + (setupPhases settings.route - total HandshakeOp.setupSteps asked)

theorem covered_iff (asked : List Asked) (result : Except ConnectFailure String)
    (run : Runs (attempt settings config rounds) asked result) :
    Covered settings config asked ↔ config.handshakeTimeout = 0 ∨ RequestsFit settings asked := by
  obtain ⟨bounds, steps⟩ := keeps_attempt settings config rounds _ _ _ _ run
  have split_ := calls_split asked
  rw [Covered, bounds, computeAttemptPeerBudget_eq, Nat.add_zero, Nat.add_le_add_iff_right]
  have fits : RequestsFit settings asked ↔ total HandshakeOp.calls asked ≤ setupPhases settings.route + signInPhases settings := by
    rw [RequestsFit]
    omega
  rw [fits]
  rcases Nat.eq_zero_or_pos config.handshakeTimeout with zero | positive
  · simp [zero]
  · rw [Nat.mul_le_mul_left_iff positive, or_iff_right (by omega)]

end

def passwordSettings : ConnectionSettings := ⟨"host", 22, "user", .password "secret", .direct⟩

/-- A host that is not known yet, whose server wants one answer after the password. -/
def trustedFirst (second : List Asked) : List Asked :=
  [answered (.call (secs 30) (.connectTcp "host" 22)) (some (.ok ())),
    answered (.call (secs 30) (.connectStream "host" 22)) (some (.ok HandshakeProgress.promptStarted)),
    answered (.extendDeadline (secs 300)) (),
    answered (.call (secs 30 + secs 300) (.connectStreamAfterPrompt "host" 22)) (some (.ok ()))] ++ second ++
  [answered (.call (secs 30) .openSession) (some (.ok ())),
    answered (.call (secs 30) .requestSubsystem) (some (.ok ())),
    answered (.call (secs 30) .startSftp) (some (.ok ())),
    answered (.call (secs 30) .canonicalizeHome) (some (.ok "/"))]

def passwordOnly : List Asked :=
  [answered (.call (secs 30) (.authenticatePassword "user" "secret")) (some (.ok AuthResult.success))]

theorem covered_password : Covered passwordSettings {} (trustedFirst passwordOnly) := by
  apply (covered_iff passwordSettings {} 0 (trustedFirst passwordOnly) (.ok "/") ?_).mpr
  · right
    unfold RequestsFit
    decide
  · exact .ask trivial trivial (.ask trivial trivial (.ask trivial trivial (.ask trivial trivial (.ask trivial trivial
      (.ask trivial trivial (.ask trivial trivial (.ask trivial trivial (.ask trivial trivial (.done _ _)))))))))

def passwordAndCode : List Asked :=
  [answered (.call (secs 30) (.authenticatePassword "user" "secret")) (some (.ok (AuthResult.failure [.keyboardInteractive] true))),
    answered (.call (secs 30) (.interactiveStart "user")) (some (.ok (InteractiveResponse.infoRequest "" "" [("Code: ", false)]))),
    answered (.sendPrompt "" "" [("Code: ", false)]) true,
    answered (.extendDeadline (secs 120)) (),
    answered (.awaitPrompt (secs 120)) (PromptAnswer.answered ["123456"]),
    answered (.call (secs 30) (.interactiveRespond ["123456"])) (some (.ok InteractiveResponse.success))]

/-- A password, a code, and a prompt for an unknown host: the attempt succeeds, and its bounds come to one more than the budget. -/
theorem code_after_prompt_not_covered :
    Runs (attempt passwordSettings {} 1) (trustedFirst passwordAndCode) (.ok "/") ∧
      ¬ Covered passwordSettings {} (trustedFirst passwordAndCode) := by
  constructor
  · exact .ask trivial trivial (.ask trivial trivial (.ask trivial trivial (.ask trivial trivial (.ask trivial trivial
      (.ask trivial trivial (.ask trivial trivial (.ask trivial trivial (.ask trivial trivial (.ask trivial trivial
        (.ask trivial trivial (.ask trivial trivial (.ask trivial trivial (.ask trivial trivial (.done _ _))))))))))))))
  · unfold Covered
    decide

end MacSftp.Handshake
