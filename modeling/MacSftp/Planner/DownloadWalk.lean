import MacSftp.Lib.Trees
import MacSftp.Planner.Batches
import MacSftp.Planner.DownloadSafety
import MacSftp.Session.LinkPaths

namespace MacSftp.DownloadPlanning

open Lib Program UploadPlanning

/-- A file on the server that is no directory, or a directory with the names in it. -/
inductive RemoteNode
  | item (kind : FileKind) (plain : kind ≠ .dir) (size : Option Nat)
  | directory (names : List (List Char))
  deriving DecidableEq, Repr

structure RemoteEntry where
  name : List Char
  isDir : Bool
  -- what the entry adds to the total; nothing is known of some items
  size : Option Nat
  deriving DecidableEq, Repr

namespace RemoteNode

def kind : RemoteNode → FileKind
  | item kind _ _ => kind
  | directory _ => .dir

def size : RemoteNode → Option Nat
  | item _ _ size => size
  | directory _ => some 0

end RemoteNode

/-- A server that stays as it is, with the way in which the client writes the path of an entry. -/
structure RemoteFs where
  node : List Char → Option RemoteNode
  distinct : ∀ path names, node path = some (.directory names) → names.Nodup
  entryPath : List Char → List Char → List Char

/-- The path of an entry is the path of the directory and the name, with a slash between them where there is none. -/
def RemoteFs.Joins (fs : RemoteFs) : Prop :=
  ∀ parent name, fs.entryPath parent name = parent ++ '/' :: name ∨
    parent.getLast? = some '/' ∧ fs.entryPath parent name = parent ++ name

namespace RemoteFs

variable {fs : RemoteFs}

inductive Shows (fs : RemoteFs) : List Char → Rose RemoteEntry → Prop
  | item {path name : List Char} {kind : FileKind} {plain : kind ≠ .dir} {size : Option Nat}
      (is : fs.node path = some (.item kind plain size)) : Shows fs path (.node ⟨name, false, size⟩ [])
  | directory {path name : List Char} {children : List (Rose RemoteEntry)}
      (is : fs.node path = some (.directory (children.map fun c => c.label.name)))
      (rest : ∀ c ∈ children, Shows fs (fs.entryPath path c.label.name) c) : Shows fs path (.node ⟨name, true, some 0⟩ children)

/-- An entry of a listing tells the kind of what it names, and the size where it matters. -/
def Tells (fs : RemoteFs) (directory name : List Char) (entry : DirEntry) : Prop :=
  entry.path = fs.entryPath directory name ∧ ∀ node, fs.node entry.path = some node →
    entry.kind = node.kind ∧ (entry.kind ≠ .dir → entry.size = node.size)

/-- Neither a cancellation nor a failure. A scan may end before others, and lists a directory in any order. -/
def Quiet (fs : RemoteFs) : (op : PlanOp) → op.Ans → Nat → Nat → Prop
  | .isCancelled, cancelled, before, after => after = before ∧ cancelled = false
  | .send _, sent, before, after => after = before ∧ sent = Sent.delivered
  | .post _, delivered, before, after => after = before ∧ delivered = true
  | .fetchTransferId, id, before, after => after = before + 1 ∧ id = before
  | .symlinkMetadata path, known, before, after =>
    after = before ∧ ∀ node, fs.node path = some node → ∃ metadata : Metadata, known = some (Except.ok metadata) ∧
      metadata.kind = node.kind ∧ (metadata.kind ≠ .dir → metadata.size = node.size)
  | .joinNext inFlight, joined, before, after =>
    after = before ∧ (inFlight ≠ [] →
      ∃ (scan : Fin inFlight.length) (entries : List DirEntry), joined = Joined.listed scan (.ok entries) ∧
        ∀ names, fs.node (inFlight.get scan) = some (.directory names) →
          ∃ order : List (List Char), order.Perm names ∧ List.Forall₂ (fs.Tells (inFlight.get scan)) order entries)

theorem Shows.node {path : List Char} {t : Rose RemoteEntry} (shown : fs.Shows path t) :
    ∃ node, fs.node path = some node ∧ t.label.size = node.size ∧ (t.label.isDir = true ↔ node.kind = .dir) := by
  cases shown with
  | item is => exact ⟨_, is, rfl, by simp [RemoteNode.kind, Rose.label, *]⟩
  | directory is rest => exact ⟨_, is, rfl, by simp [RemoteNode.kind, Rose.label]⟩

theorem Shows.listing {path : List Char} {t : Rose RemoteEntry} (shown : fs.Shows path t) (dir : t.label.isDir = true) :
    ∃ children, t = .node t.label children ∧ fs.node path = some (.directory (children.map fun c => c.label.name)) ∧
      ∀ c ∈ children, fs.Shows (fs.entryPath path c.label.name) c := by
  cases shown with
  | item is => cases dir
  | directory is rest => exact ⟨_, rfl, is, rest⟩

theorem Shows.visits {path : List Char} {t : Rose RemoteEntry} (shown : fs.Shows path t) (leaf : t.label.isDir = false)
    (route : List RemoteEntry) : t.visits route = [] := by
  cases shown with
  | item is => rfl
  | directory is rest => cases leaf

end RemoteFs

/-- Other plans take transfer ids in the meantime. -/
def OthersFetch (before after : Nat) : Prop := before ≤ after

abbrev PlanLog := List (Asked Nat PlanOp PlanOp.Ans)

def PlanOp.event? : PlanOp → Option TransferEvent
  | send event | post event => some event
  | _ => none

def sentEvents (asked : PlanLog) : List TransferEvent := asked.filterMap fun a => a.op.event?

structure Emission where
  source : List Char
  destination : List Char
  size : Option Nat

/-- An unknown size makes the total unknown, as one that is too large would. -/
def Emission.bytes (emission : Emission) : Nat := emission.size.getD (2 ^ 64)

def Emission.job (plan : RemoteDownloadPlanner) (emission : Emission) (id : TransferId) : TransferJob :=
  plan.childJob id ⟨emission.source⟩ ⟨emission.destination⟩

theorem emitChild_bytes (planner : Planner) (planId : TransferPlanId) (job : TransferJob) (size : Option Nat) :
    planner.emitChild planId job size = planner.emitChild planId job (some (size.getD (2 ^ 64))) := by
  cases size with
  | some size => rfl
  | none =>
    have same : Planner.addBytes planner.totalBytes none = Planner.addBytes planner.totalBytes (some (2 ^ 64)) := by
      cases planner.totalBytes with
      | none => rfl
      | some total =>
        have large : ¬ total + 2 ^ 64 < 2 ^ 64 := by omega
        show none = Planner.checkedAdd total (2 ^ 64)
        rw [Planner.checkedAdd, if_neg large]
    simp only [Planner.emitChild, Option.getD_none, same]

/-- What has been planned and published when these entries have been emitted. -/
structure Emits (plan : RemoteDownloadPlanner) (emissions : List Emission) (planner : Planner) (past : PlanLog)
    (next : Nat) : Prop where
  published : ∃ batches, sentEvents past = progressEvents batches ∧
    Pending plan.planId (emissions.map Emission.bytes) planner batches
  jobs : List.Forall₂ (fun job emission => job = emission.job plan job.id) planner.childJobs emissions
  ascending : planner.childJobs.Pairwise fun a b => a.id.raw < b.id.raw
  fetched : ∀ job ∈ planner.childJobs, job.id.raw < next

theorem Emits.look {plan : RemoteDownloadPlanner} {emissions : List Emission} {planner : Planner} {past : PlanLog}
    {w before after : Nat} (emits : Emits plan emissions planner past w) (between : OthersFetch w before) {op : PlanOp}
    {answer : op.Ans}
    (silent : op.event? = none) (same : before ≤ after) :
    Emits plan emissions planner (past ++ [⟨before, op, answer, after⟩]) after := by
  have sent : sentEvents (past ++ [⟨before, op, answer, after⟩]) = sentEvents past := by
    rw [sentEvents, List.filterMap_append, List.filterMap_cons, silent]
    exact List.append_nil _
  refine ⟨?_, emits.jobs, emits.ascending, fun job mem => ?_⟩
  · rw [sent]
    exact emits.published
  · exact Nat.lt_of_lt_of_le (emits.fetched job mem) (Nat.le_trans between same)

/-- In a quiet world the program returns, and the assertion holds of what it returns. -/
def Returns (fs : RemoteFs) {α : Type} (P : PlanLog → Nat → Prop) (p : PlanM α) (Q : α → PlanLog → Nat → Prop) : Prop :=
  Triple OthersFetch fs.Quiet P p (outcome Q fun _ _ => False)

section Rules

variable {fs : RemoteFs} {α β : Type} {P : PlanLog → Nat → Prop} {Q : α → PlanLog → Nat → Prop} {R : β → PlanLog → Nat → Prop}

theorem returns_pure {a : α} (h : ∀ past w, P past w → Q a past w) : Returns fs P (pure a) Q := triple_pure h

theorem returns_bind {p : PlanM β} {f : β → PlanM α} (first : Returns fs P p R) (rest : ∀ b, Returns fs (R b) (f b) Q) :
    Returns fs P (p >>= f) Q :=
  triple_seq first (fun _ _ never => never) rest

theorem returns_fact {fact : Prop} {p : PlanM α} (h : fact → Returns fs P p Q) : Returns fs (fun past w => P past w ∧ fact) p Q :=
  fun past w asked w' result pre run => h pre.2 past w asked w' result pre.1 run

theorem returns_mono {p : PlanM α} {Q' : α → PlanLog → Nat → Prop} (h : Returns fs P p Q)
    (weaker : ∀ a past w, Q a past w → Q' a past w) :
    Returns fs P p Q' := by
  refine Triple.mono h (fun _ _ pre => pre) ?_
  intro result past w post
  cases result with
  | ok a => exact weaker a past w post
  | error e => exact post

theorem returns_attempt {p : PlanM α} (h : Returns fs P p Q) :
    Returns fs P p.attempt (fun result past w => ∃ a, result = .ok a ∧ Q a past w) := by
  refine triple_attempt (Triple.mono h (fun _ _ pre => pre) ?_)
  intro result past w post
  cases result with
  | ok a => exact ⟨a, rfl, post⟩
  | error e => exact post.elim

end Rules

section Planning

variable {fs : RemoteFs} {plan : RemoteDownloadPlanner} {emissions : List Emission} {planner : Planner}

theorem ask_returns (op : PlanOp) {fact : op.Ans → Prop} (silent : op.event? = none)
    (quiet : ∀ answer before after, fs.Quiet op answer before after → after = before ∧ fact answer) :
    Returns fs (Emits plan emissions planner) (ask op) (fun answer past w => Emits plan emissions planner past w ∧
      fact answer) := by
  apply triple_perform
  intro answer past w before after emits between step
  obtain ⟨same, is⟩ := quiet answer before after step
  exact ⟨emits.look between silent (Nat.le_of_eq same.symm), is⟩

theorem ensureNotCancelled_returns :
    Returns fs (Emits plan emissions planner) ensureNotCancelled (fun _ => Emits plan emissions planner) := by
  apply returns_bind (ask_returns .isCancelled rfl fun _ _ _ quiet => quiet)
  intro cancelled
  apply returns_fact
  rintro rfl
  exact returns_pure fun _ _ emits => emits

theorem sentEvents_send (past : PlanLog) (event : TransferEvent) (before : Nat) (answer : Sent) (after : Nat) :
    sentEvents (past ++ [⟨before, .send event, answer, after⟩]) = sentEvents past ++ [event] := by
  rw [sentEvents, List.filterMap_append]
  rfl

theorem sentEvents_post (past : PlanLog) (event : TransferEvent) (before : Nat) (answer : Bool) (after : Nat) :
    sentEvents (past ++ [⟨before, .post event, answer, after⟩]) = sentEvents past ++ [event] := by
  rw [sentEvents, List.filterMap_append]
  rfl

theorem sendProgress_returns (w₀ : Nat) (sent events : List TransferEvent) :
    Returns fs (fun past w => sentEvents past = sent ∧ w₀ ≤ w) (sendProgress events)
      (fun _ past w => sentEvents past = sent ++ events ∧ w₀ ≤ w) := by
  induction events generalizing sent with
  | nil =>
    apply returns_pure
    intro past w is
    rwa [List.append_nil]
  | cons event events ih =>
    have first : Returns fs (fun past w => sentEvents past = sent ∧ w₀ ≤ w) (ask (.send event))
        (fun (outcome : Sent) past w => (sentEvents past = sent ++ [event] ∧ w₀ ≤ w) ∧ outcome = .delivered) := by
      apply triple_perform
      rintro (answer : Sent) past w before after ⟨is, later⟩ between ⟨same, arrived⟩
      refine ⟨⟨?_, ?_⟩, arrived⟩
      · exact (sentEvents_send past event before answer after).trans (congrArg (· ++ [event]) is)
      · rw [same]
        exact Nat.le_trans later between
    apply returns_bind first
    intro outcome
    apply returns_fact
    rintro rfl
    rw [List.append_cons sent event events]
    exact ih (sent ++ [event])

theorem emitChild_returns (source destination : List Char) (size : Option Nat) :
    Returns fs (Emits plan emissions planner) (plan.emitChild planner ⟨source⟩ ⟨destination⟩ size)
      (Emits plan (emissions ++ [⟨source, destination, size⟩])) := by
  apply returns_bind ensureNotCancelled_returns
  intro _
  have fetch : Returns fs (Emits plan emissions planner) (ask .fetchTransferId) (fun (id : Nat) past w =>
      Emits plan emissions planner past w ∧ (∀ job ∈ planner.childJobs, job.id.raw < id) ∧ id < w) := by
    apply triple_perform
    rintro (id : Nat) past w before after emits between ⟨moved, is⟩
    replace is : id = before := is
    have same : before ≤ after := by omega
    refine ⟨emits.look between rfl same, fun job mem => ?_, by omega⟩
    rw [is]
    exact Nat.lt_of_lt_of_le (emits.fetched job mem) between
  apply returns_bind fetch
  intro (id : Nat)
  rintro past w asked w' result ⟨emits, above, taken⟩ run
  obtain ⟨batches, sent, pending⟩ := emits.published
  obtain ⟨more, events, jobs, emitted⟩ := pending.emit (plan.childJob ⟨id⟩ ⟨source⟩ ⟨destination⟩) (size.getD (2 ^ 64))
  rw [← emitChild_bytes] at events jobs emitted
  have rest : Returns fs (fun past later => sentEvents past = progressEvents batches ∧ w ≤ later)
      (sendProgress (planner.emitChild plan.planId (plan.childJob ⟨id⟩ ⟨source⟩ ⟨destination⟩) size).2 >>=
        fun _ => pure (planner.emitChild plan.planId (plan.childJob ⟨id⟩ ⟨source⟩ ⟨destination⟩) size).1)
      (Emits plan (emissions ++ [⟨source, destination, size⟩])) := by
    apply returns_bind (sendProgress_returns w (progressEvents batches) _)
    intro _
    apply returns_pure
    rintro past later ⟨is, moved⟩
    refine ⟨⟨batches ++ more, ?_, ?_⟩, ?_, ?_, ?_⟩
    · rw [is, events]
      exact List.map_append.symm
    · rw [List.map_append]
      exact emitted
    · rw [jobs]
      exact List.rel_append emits.jobs (.cons rfl .nil)
    · rw [jobs]
      refine List.pairwise_append.mpr ⟨emits.ascending, List.pairwise_singleton _ _, fun job mem last isLast => ?_⟩
      rw [List.mem_singleton.mp isLast]
      exact above job mem
    · rw [jobs]
      intro job mem
      rcases List.mem_append.mp mem with before | last
      · exact Nat.lt_of_lt_of_le (emits.fetched job before) moved
      · rw [List.mem_singleton.mp last]
        exact Nat.lt_of_lt_of_le taken moved
  exact rest past w asked w' result ⟨sent, Nat.le_refl w⟩ run

end Planning

end MacSftp.DownloadPlanning
