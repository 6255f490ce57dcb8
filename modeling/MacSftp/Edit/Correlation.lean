import MacSftp.Edit.Transitions

namespace MacSftp

open Lib EditSessionStore

def EditSession.inTransit (session : EditSession) : Bool :=
  session.phase = .downloading || session.phase = .uploadingBack

/-- The transfer the session waits for: its direction and both endpoints. -/
def EditSession.awaited (session : EditSession) :
    Option (TransferDirection × TransferEndpoint × TransferEndpoint) :=
  match session.phase with
  | .downloading => some (.download, .remote session.ioPath, .local session.localTempPath)
  | .uploadingBack => some (.upload, .local session.localTempPath, .remote session.ioPath)
  | _ => none

namespace EditSessionStore

variable {store : EditSessionStore} {session : EditSession}

theorem getMut_keeps (hs : session ∈ store.sessions) {id : EditSessionId} (other : session.id ≠ id)
    (f : EditSession → EditSession) : session ∈ (store.getMut id f).sessions :=
  mem_updateKey_of_ne EditSession.id hs other f

theorem remove_keeps (hs : session ∈ store.sessions) {id : EditSessionId} (other : session.id ≠ id) :
    session ∈ (store.remove id).sessions :=
  (List.mem_eraseP_of_neg (by simpa using other)).mpr hs

end EditSessionStore

namespace RemoteEditLifecycle

variable {l : RemoteEditLifecycle}

def TempPaths (l : RemoteEditLifecycle) : Prop :=
  ∀ session ∈ l.store.sessions, ∃ name, session.localTempPath = l.tempPath session.id name

theorem tempPath_id {a b : EditSessionId} {x y : List Char} (h : l.tempPath a x = l.tempPath b y) : a = b := by
  simp only [tempPath, LocalPath.mk.injEq, List.append_assoc, List.cons_append] at h
  have tail := List.append_cancel_left h
  simp only [List.cons.injEq, true_and] at tail
  have digits := List.append_cancel_left tail
  simp only [List.cons.injEq, true_and] at digits
  have cut := congrArg (List.takeWhile (· ≠ '/')) digits
  rw [List.takeWhile_append_of_pos (by simpa using slash_not_digit a.raw),
    List.takeWhile_append_of_pos (by simpa using slash_not_digit b.raw)] at cut
  simp only [ne_eq, not_true_eq_false, decide_false, Bool.false_eq_true, not_false_eq_true,
    List.takeWhile_cons_of_neg, List.append_nil] at cut
  cases a
  cases b
  exact congrArg _ (toDigits_injective cut)

theorem TempPaths.unique (paths : l.TempPaths) (valid : l.store.Valid) {s t : EditSession}
    (hs : s ∈ l.store.sessions) (ht : t ∈ l.store.sessions) (h : s.localTempPath = t.localTempPath) : s = t := by
  obtain ⟨x, hx⟩ := paths s hs
  obtain ⟨y, hy⟩ := paths t ht
  rw [hx, hy] at h
  exact key_unique EditSession.id valid.ids hs ht (tempPath_id h)

theorem TempPaths.find (paths : l.TempPaths) (valid : l.store.Valid) {session : EditSession}
    (hs : session ∈ l.store.sessions) : l.store.findByTempPath session.localTempPath = some session := by
  cases hf : l.store.findByTempPath session.localTempPath with
  | none => exact absurd rfl ((findKey_eq_none EditSession.localTempPath).mp hf session hs)
  | some other =>
    obtain ⟨ho, same⟩ := findKey_mem EditSession.localTempPath hf
    rw [paths.unique valid ho hs same]

theorem TempPaths.of_retained {l' : RemoteEditLifecycle} (paths : l.TempPaths) (dir : l'.editsDir = l.editsDir)
    (run : l'.runId = l.runId) (retained : l.store.Retained l'.store) : l'.TempPaths := by
  intro session' hs'
  obtain ⟨session, hs, same⟩ := retained.origin session' hs'
  obtain ⟨name, hn⟩ := paths session hs
  simp only [EditSession.target, EditTarget.mk.injEq] at same
  refine ⟨name, ?_⟩
  rw [same.2.2.2.2.2, hn, same.1, tempPath, tempPath, dir, run]

theorem TempPaths.startDownload (paths : l.TempPaths) (pending : PendingEdit) :
    (l.startDownload pending).1.TempPaths := by
  unfold RemoteEditLifecycle.startDownload
  split
  · exact paths
  · intro session hs
    rcases List.mem_append.mp hs with hm | hm
    · exact paths session hm
    · rw [List.mem_singleton.mp hm]
      exact ⟨_, rfl⟩

theorem TempPaths.apply (paths : l.TempPaths) (valid : l.store.Valid) (op : EditOp) : (l.apply op).1.TempPaths := by
  obtain ⟨dir, run⟩ := apply_dirs l op
  rcases apply_opens valid op with retained | ⟨mid, pending, hd, hr, carried, opened⟩
  · exact paths.of_retained dir run retained
  · rw [opened]
    exact (paths.of_retained hd hr carried.retained).startDownload pending

theorem awaited_inTransit {session : EditSession} {route : TransferDirection × TransferEndpoint × TransferEndpoint}
    (h : session.awaited = some route) : session.inTransit = true := by
  unfold EditSession.awaited at h
  unfold EditSession.inTransit
  split at h <;> simp_all

theorem awaited_iff {session : EditSession} (transit : session.inTransit = true) (direction : TransferDirection)
    (source destination : TransferEndpoint) (succeeded : Bool) :
    session.awaited = some (direction, source, destination) ↔
      localEndpoint source destination = some session.localTempPath ∧
        matchesPhase session ⟨direction, source, destination, succeeded⟩ = true := by
  unfold EditSession.awaited matchesPhase
  cases hp : session.phase with
  | downloading =>
    simp only [Option.some.injEq, Prod.mk.injEq, decide_eq_true_eq]
    constructor
    · rintro ⟨rfl, rfl, rfl⟩
      exact ⟨rfl, rfl, rfl⟩
    · rintro ⟨path, rfl, rfl⟩
      cases destination with
      | «local» path' => simpa [localEndpoint, eq_comm] using path
      | remote path' => simp [localEndpoint] at path
  | uploadingBack =>
    simp only [Option.some.injEq, Prod.mk.injEq, decide_eq_true_eq]
    constructor
    · rintro ⟨rfl, rfl, rfl⟩
      exact ⟨rfl, rfl, rfl⟩
    · rintro ⟨path, rfl, rfl⟩
      cases source with
      | «local» path' => simpa [localEndpoint, eq_comm] using path
      | remote path' => simp [localEndpoint] at path
  | editing | checkingRemote | remoteConflict => simp [EditSession.inTransit, hp] at transit

theorem getMut_editing (valid : l.store.Valid) (id : EditSessionId) {f : EditSession → EditSession}
    {s' : EditSession} (hs' : s' ∈ (l.store.getMut id f).sessions) (he : s'.id = id)
    (phase : ∀ s, (f s).phase = .editing) : s'.phase = .editing := by
  obtain ⟨s, hs, rfl⟩ := (mem_updateKey EditSession.id id f valid.ids).mp hs'
  split at he
  · rw [if_pos ‹_›]
    exact phase s
  · exact absurd he ‹_›

theorem onTransferFinished_awaited (valid : l.store.Valid) (paths : l.TempPaths) {session : EditSession}
    (hs : session ∈ l.store.sessions) {direction : TransferDirection} {source destination : TransferEndpoint}
    (h : session.awaited = some (direction, source, destination)) (succeeded : Bool) (facts : Option LocalFileFacts)
    {s' : EditSession}
    (hs' : s' ∈ (l.onTransferFinished ⟨direction, source, destination, succeeded⟩ facts).1.store.sessions)
    (he : s'.id = session.id) : s'.phase = .editing := by
  have transit := awaited_inTransit h
  obtain ⟨path, phase⟩ := (awaited_iff transit direction source destination succeeded).mp h
  simp only [onTransferFinished, path, paths.find valid hs, phase, not_true_eq_false, ↓reduceIte] at hs'
  cases hp : session.phase with
  | downloading =>
    rw [hp] at hs'
    cases succeeded with
    | true => exact getMut_editing valid session.id hs' he (fun _ => rfl)
    | false =>
      rw [if_neg (by simp)] at hs'
      have kept : s' ∈ l.store.sessions.eraseP (fun s => s.id = session.id) := hs'
      rw [eraseP_eq_filter EditSession.id valid.ids, List.mem_filter, decide_eq_true_eq] at kept
      exact absurd he kept.2
  | uploadingBack =>
    rw [hp] at hs'
    cases succeeded with
    | true => exact getMut_editing valid session.id hs' he (fun _ => rfl)
    | false => exact getMut_editing valid session.id hs' he (fun _ => rfl)
  | editing | checkingRemote | remoteConflict => simp [EditSession.inTransit, hp] at transit

theorem onTransferFinished_apart {session : EditSession} (hs : session ∈ l.store.sessions)
    {finished : EditTransferFinished}
    (apart : ∀ temp other, localEndpoint finished.source finished.destination = some temp →
      l.store.findByTempPath temp = some other → matchesPhase other finished = true → session.id ≠ other.id)
    (facts : Option LocalFileFacts) : session ∈ (l.onTransferFinished finished facts).1.store.sessions := by
  unfold onTransferFinished
  split
  · exact hs
  rename_i temp path
  split
  · exact hs
  rename_i other found
  split
  · exact hs
  rename_i phase
  have hne : session.id ≠ other.id := apart temp other path found (by simpa using phase)
  split
  · split
    · exact getMut_keeps hs hne _
    · exact remove_keeps hs hne
  · split
    · exact getMut_keeps hs hne _
    · exact getMut_keeps hs hne _
  · exact hs

theorem onTransferFinished_other (valid : l.store.Valid) {session : EditSession} (hs : session ∈ l.store.sessions)
    (transit : session.inTransit = true) {direction : TransferDirection} {source destination : TransferEndpoint}
    (h : session.awaited ≠ some (direction, source, destination)) (succeeded : Bool) (facts : Option LocalFileFacts) :
    session ∈ (l.onTransferFinished ⟨direction, source, destination, succeeded⟩ facts).1.store.sessions := by
  refine onTransferFinished_apart hs ?_ facts
  intro temp other path found phase he
  obtain ⟨ho, same⟩ := findKey_mem EditSession.localTempPath found
  have heq := key_unique EditSession.id valid.ids hs ho he
  subst heq
  exact h ((awaited_iff transit direction source destination succeeded).mpr
    ⟨path.trans (congrArg some same.symm), phase⟩)

end RemoteEditLifecycle

end MacSftp
