import MacSftp.Edit.Authorization
import MacSftp.Edit.Correlation

namespace MacSftp

open Lib EditSessionStore

namespace RemoteEditLifecycle

variable {l : RemoteEditLifecycle} {id : EditSessionId} {mtime : Timestamp}

def AuthorizesUpload (id : EditSessionId) (mtime : Timestamp) (l : RemoteEditLifecycle) (op : EditOp) : Prop :=
  ∃ result, op = .onCheckResult result (some mtime) ∧ result.sessionId = id ∧
    ∃ effect ∈ (l.apply op).2.editEffects, effect.isUpload = true

def InUpload (id : EditSessionId) (l : RemoteEditLifecycle) : Prop :=
  ∃ session, l.store.get id = some session ∧ session.phase = .uploadingBack

/-- The upload was authorized for this modification time and has not come to an end since. -/
def Uploading (id : EditSessionId) (mtime : Timestamp) (start : RemoteEditLifecycle) (ops : List EditOp) : Prop :=
  machine.Since (AuthorizesUpload id mtime) (fun l op => InUpload id (l.apply op).1) start ops

/-- The session's record says no more than what was uploaded: it is clean and rebased on the facts only if they are
those of the authorized file, and a later save is neither lost nor taken for the server's file. -/
def DescribesUpload (mtime : Timestamp) (facts : LocalFileFacts) (session : EditSession) : Prop :=
  (session.localModified = false ∧ session.remoteSnapshot = LocalFileFacts.uploadedSnapshot facts → facts.mtime = mtime) ∧
    (facts.mtime ≠ mtime →
      session.localModified = true ∧ session.remoteSnapshot ≠ LocalFileFacts.uploadedSnapshot facts)

instance (mtime : Timestamp) (facts : LocalFileFacts) (session : EditSession) :
    Decidable (DescribesUpload mtime facts session) := inferInstanceAs (Decidable (_ ∧ _))

def uploadFinished (session : EditSession) : EditTransferFinished :=
  ⟨.upload, .local session.localTempPath, .remote session.ioPath, true⟩

theorem onTransferFinished_uploaded (valid : l.store.Valid) (paths : l.TempPaths) {session : EditSession}
    (stored : l.store.get id = some session) (uploading : session.phase = .uploadingBack) (facts : Option LocalFileFacts) :
    (l.onTransferFinished (uploadFinished session) facts).1.store.get id = some { session with
      phase := .editing
      localModified := false
      localBaseline := facts.map (·.baseline)
      remoteSnapshot := (facts.map LocalFileFacts.uploadedSnapshot).getD session.remoteSnapshot } := by
  obtain ⟨hs, rfl⟩ := get_mem stored
  have matching : matchesPhase session (uploadFinished session) = true := by
    simp [matchesPhase, uploading, uploadFinished]
  have found := paths.find valid hs
  have step : l.onTransferFinished (uploadFinished session) facts = l.finishUpload session facts := by
    unfold onTransferFinished
    simp only [uploadFinished, localEndpoint] at matching ⊢
    simp only [found, matching, not_true_eq_false, ↓reduceIte, uploading]
  rw [step]
  refine findKey_updateKey EditSession.id ?_ valid.ids stored
  exact fun _ => rfl

theorem authorizes_inUpload (valid : l.store.Valid) {op : EditOp} (h : AuthorizesUpload id mtime l op) :
    InUpload id (l.apply op).1 := by
  obtain ⟨result, rfl, rfl, effect, member, isUpload⟩ := h
  obtain ⟨session, stored, _, _, _, _, store⟩ := onCheckResult_upload result (some mtime) member isUpload
  refine ⟨{ session with phase := .uploadingBack, pendingCheckId := none, checkingLocalMtime := none }, ?_, rfl⟩
  show (l.onCheckResult result (some mtime)).1.store.get result.sessionId = _
  rw [store]
  refine findKey_updateKey EditSession.id ?_ valid.ids stored
  exact fun _ => rfl

theorem reachable_tempPaths (editsDir : LocalPath) (runId : List Char) (ops : List EditOp) :
    (machine.run (new editsDir runId) ops).store.Valid ∧ (machine.run (new editsDir runId) ops).TempPaths := by
  refine machine.run_invariant (I := fun l => l.store.Valid ∧ l.TempPaths) ?_ ⟨new_valid editsDir runId, ?_⟩ ops
  · exact fun l op ⟨valid, paths⟩ => ⟨apply_valid valid op, paths.apply valid op⟩
  · intro session hs
    cases hs

theorem uploading_inUpload {editsDir : LocalPath} {runId : List Char} {ops : List EditOp}
    (h : Uploading id mtime (new editsDir runId) ops) : InUpload id (machine.run (new editsDir runId) ops) := by
  rcases List.eq_nil_or_concat ops with rfl | ⟨before, op, rfl⟩
  · exact h.elim
  · rw [List.concat_eq_append] at h ⊢
    rw [Machine.run_concat]
    rcases (machine.since_concat (new editsDir runId) before op).mp h with authorizes | ⟨_, stays⟩
    · exact authorizes_inUpload (reachable_tempPaths editsDir runId before).1 authorizes
    · exact stays

theorem describesUpload_rebased_iff (session : EditSession) (facts : LocalFileFacts) (clean : session.localModified = false)
    (rebased : session.remoteSnapshot = LocalFileFacts.uploadedSnapshot facts) :
    DescribesUpload mtime facts session ↔ facts.mtime = mtime := by
  constructor
  · intro h
    exact h.1 ⟨clean, rebased⟩
  · intro same
    exact ⟨fun _ => same, fun differs => absurd same differs⟩

theorem upload_baseline_iff (editsDir : LocalPath) (runId : List Char) (ops : List EditOp) (id : EditSessionId)
    (mtime : Timestamp) (uploading : Uploading id mtime (new editsDir runId) ops) (session : EditSession)
    (stored : (machine.run (new editsDir runId) ops).store.get id = some session) (facts : Option LocalFileFacts) :
    (∃ session', ((machine.run (new editsDir runId) ops).onTransferFinished (uploadFinished session) facts).1.store.get id =
        some session' ∧ ∀ f ∈ facts, DescribesUpload mtime f session') ↔ ∀ f ∈ facts, f.mtime = mtime := by
  obtain ⟨valid, paths⟩ := reachable_tempPaths editsDir runId ops
  obtain ⟨other, same, phase⟩ := uploading_inUpload uploading
  obtain rfl : session = other := Option.some.inj (stored.symm.trans same)
  rw [onTransferFinished_uploaded valid paths stored phase facts]
  simp only [Option.some.injEq, exists_eq_left']
  refine forall₂_congr fun f given => ?_
  obtain rfl : facts = some f := given
  exact describesUpload_rebased_iff _ f rfl rfl

def authorizedRun : List EditOp := sampleUploadRun ++ [.onCheckResult sampleResult (some (.fromSecsSinceEpoch 200))]

def uploadingSession : EditSession :=
  { downloadSession samplePending ⟨1⟩ (.new "/e/r/1/notes.txt") with phase := .uploadingBack }

theorem authorizedRun_uploading :
    Uploading ⟨1⟩ (.fromSecsSinceEpoch 200) (new (.new "/e") ['r']) authorizedRun := by
  refine (machine.since_concat _ sampleUploadRun _).mpr (Or.inl ⟨sampleResult, rfl, rfl, ?_⟩)
  decide

theorem upload_baseline_unchanged :
    ∃ session', ((machine.run (new (.new "/e") ['r']) authorizedRun).onTransferFinished (uploadFinished uploadingSession)
        (some ⟨20, .fromSecsSinceEpoch 200⟩)).1.store.get ⟨1⟩ = some session' ∧
      ∀ f ∈ some ⟨20, .fromSecsSinceEpoch 200⟩, DescribesUpload (.fromSecsSinceEpoch 200) f session' :=
  (upload_baseline_iff (.new "/e") ['r'] authorizedRun ⟨1⟩ (.fromSecsSinceEpoch 200) authorizedRun_uploading
    uploadingSession (by decide) (some ⟨20, .fromSecsSinceEpoch 200⟩)).mpr (by decide)

/-- The file is saved again while its upload runs: the session is clean, the save passes for the server's file, and the
watcher's report of it is suppressed. -/
theorem save_during_upload_is_lost :
    let l := machine.run (new (.new "/e") ['r']) authorizedRun
    let done := (l.onTransferFinished (uploadFinished uploadingSession) (some ⟨25, .fromSecsSinceEpoch 201⟩)).1
    Uploading ⟨1⟩ (.fromSecsSinceEpoch 200) (new (.new "/e") ['r']) authorizedRun ∧
      l.store.get ⟨1⟩ = some uploadingSession ∧
      ((done.store.get ⟨1⟩).map fun session => (session.localModified, session.remoteSnapshot)) =
        some (false, ⟨some 25, some (.fromSecsSinceEpoch 201)⟩) ∧
      (done.recordLocalModified ⟨1⟩ (.new "/e/r/1/notes.txt") (some ⟨25, .fromSecsSinceEpoch 201⟩)).2 = false ∧
      ¬ ∃ session', done.store.get ⟨1⟩ = some session' ∧
        DescribesUpload (.fromSecsSinceEpoch 200) ⟨25, .fromSecsSinceEpoch 201⟩ session' := by
  intro l done
  have stored : l.store.get ⟨1⟩ = some uploadingSession := by decide
  refine ⟨authorizedRun_uploading, stored, by decide, by decide, ?_⟩
  rintro ⟨session', found, described⟩
  have clean : (done.store.get ⟨1⟩).map (fun session => session.localModified) = some false := by decide
  rw [found, Option.map_some, Option.some.injEq, (described.2 (by decide)).1] at clean
  cases clean

end RemoteEditLifecycle

end MacSftp
