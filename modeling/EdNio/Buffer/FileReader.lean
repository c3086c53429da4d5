import EdNio.Library.History
import EdNio.Library.MachineInt
import Mathlib.Data.List.Infix

/-!
# EdBuffredFileReader

The reader of a file by blocks, which are loaded by a job of the task and, when there is none,
by `getData`. What a `read` returns is an argument of the step that makes it.
-/

namespace EdNio.Buffer
open MachineInt Transition

/-- `buf` holds the bytes that were read to the start of the block. -/
structure EdBufferInfo where
  buf : Option (List UInt8)
  size : Int
  takeBuffer : Bool
deriving DecidableEq, Repr

/-- The first `size` bytes of the buffer. -/
def EdBufferInfo.bytes (info : EdBufferInfo) : List UInt8 :=
  (info.buf.getD []).take info.size.toNat

structure OpenFile where
  content : List UInt8
  offset : Nat
deriving DecidableEq, Repr

/-- `mFile` is none while no file is open, `mJobEvent` is the counter of the eventfd. -/
structure EdBuffredFileReader where
  mFile : Option OpenFile
  mBlockSize : Int
  mQSize : Int
  mJobEvent : Option Nat
  mBufList : List EdBufferInfo
  mIsScheduled : Bool
  mEof : Bool
deriving DecidableEq, Repr

namespace EdBuffredFileReader

variable (s : EdBuffredFileReader)

def new : EdBuffredFileReader where
  mFile := none
  mBlockSize := 0
  mQSize := 0
  mJobEvent := none
  mBufList := []
  mIsScheduled := false
  mEof := false

/-- After `open` of a file; `eventfd` says that the eventfd could be created. -/
def opened (content : List UInt8) (block_unit qsize : Int) (eventfd : Bool) :
    EdBuffredFileReader :=
  { s with
    mFile := some ⟨content, 0⟩
    mBlockSize := toI32 (block_unit * 4 * 1024)
    mQSize := qsize
    mJobEvent := if eventfd then some 0 else none }

def close : EdBuffredFileReader :=
  { s with mFile := none, mJobEvent := none, mBufList := [] }

/-- `mJobEvent.raise()`. The counter of an eventfd stays below `2^64 - 1`. -/
def raise : EdBuffredFileReader :=
  { s with mJobEvent := s.mJobEvent.map (fun n => if n + 1 < 2 ^ 64 - 1 then n + 1 else n) }

/-- The block that `readFile` fills when `read` returns `rcnt`, and the file after it. -/
def readFile (rcnt : Int) : List UInt8 × Option OpenFile :=
  match s.mFile with
  | some f =>
    ((f.content.drop f.offset).take rcnt.toNat, some { f with offset := f.offset + rcnt.toNat })
  | none => ([], none)

def loadData (rcnt : Int) : Int × EdBuffredFileReader :=
  let (buf, mFile) := s.readFile rcnt
  if 0 < rcnt then
    (rcnt, { s with mFile := mFile, mBufList := s.mBufList ++ [⟨some buf, rcnt, false⟩] })
  else (0, { s with mFile := mFile, mEof := true })

/-- The buffer that `getData` returns. -/
def takeFront : EdBufferInfo × EdBuffredFileReader :=
  match s.mBufList with
  | pbf :: rest => (⟨pbf.buf, pbf.size, true⟩, { s with mBufList := rest })
  | [] => (⟨none, 0, false⟩, s)

def getData (rcnt : Int) : EdBufferInfo × EdBuffredFileReader :=
  let s := if s.mBufList.length = 0 then (s.loadData rcnt).2 else s
  let (info, s) := s.takeFront
  (info, if s.mBufList.length ≤ s.mQSize ∧ s.mEof = false then s.raise else s)

/-- The read event of `mJobEvent` with its listener. -/
def jobEvent (rcnt : Int) : EdBuffredFileReader :=
  let (ret, s) :=
    { s with mJobEvent := s.mJobEvent.map (fun _ => 0), mIsScheduled := false }.loadData rcnt
  if s.mBufList.length < s.mQSize ∧ 0 < ret then { s.raise with mIsScheduled := true } else s

/-- What `read` may return for `mBlockSize` bytes. -/
def canRead (rcnt : Int) : Bool :=
  match s.mFile with
  | some f =>
    if f.offset < f.content.length then
      decide (1 ≤ rcnt ∧ rcnt ≤ s.mBlockSize ∧ f.offset + rcnt ≤ f.content.length)
    else rcnt = 0
  | none => rcnt = -1

inductive Action
  | opened (content : List UInt8) (block_unit qsize : Int) (eventfd : Bool)
  | close
  | getData (rcnt : Int)
  | jobEvent (rcnt : Int)
deriving DecidableEq, Repr

/-- The task calls back when the eventfd has been raised. -/
def step : Action → Option EdBuffredFileReader
  | .opened content block_unit qsize eventfd =>
    if s.mFile = none then some (s.opened content block_unit qsize eventfd) else none
  | .close => some s.close
  | .getData rcnt =>
    if s.mBufList.length ≠ 0 ∨ s.canRead rcnt then some (s.getData rcnt).2 else none
  | .jobEvent rcnt =>
    if s.mJobEvent.any (fun n => 0 < n) ∧ s.canRead rcnt then some (s.jobEvent rcnt) else none

end EdBuffredFileReader

inductive ReaderEvent
  | opened (content : List UInt8)
  | closed
  | returned (info : EdBufferInfo)
deriving DecidableEq, Repr

def readerEvent (s : EdBuffredFileReader) : EdBuffredFileReader.Action → Option ReaderEvent
  | .opened content _ _ _ => some (.opened content)
  | .close => some .closed
  | .getData rcnt => some (.returned (s.getData rcnt).1)
  | .jobEvent _ => none

def fileReader : System (Recorded EdBuffredFileReader ReaderEvent) EdBuffredFileReader.Action :=
  ({ init := fun s => s = .new, step := EdBuffredFileReader.step } :
    System EdBuffredFileReader EdBuffredFileReader.Action).recorded readerEvent

/-- The file that is open, and the bytes that `getData` has returned since. -/
abbrev Session := Option (List UInt8 × List UInt8)

def ReaderEvent.next (x : Session) : ReaderEvent → Session
  | .opened content => some (content, [])
  | .closed => none
  | .returned info => x.map (fun (content, got) => (content, got ++ info.bytes))

def session (log : List ReaderEvent) : Session :=
  log.foldl ReaderEvent.next none

/-- A buffer holds the next bytes of the file, at least one, and none is returned only at the
end of the file. -/
def Delivers (before : List ReaderEvent) : ReaderEvent → Prop
  | .returned info => ∀ content got, session before = some (content, got) →
    if info.buf.isSome then info.bytes ≠ [] ∧ info.size = info.bytes.length ∧
      got ++ info.bytes <+: content
    else got = content
  | _ => True

lemma session_concat (log : List ReaderEvent) (e : ReaderEvent) :
    session (log ++ [e]) = e.next (session log) := by
  simp [session]

/-- A buffer as `loadData` makes it. -/
structure EdBufferInfo.Loaded (info : EdBufferInfo) : Prop where
  buf : info.buf.isSome = true
  bytes : info.bytes ≠ []
  size : info.size = info.bytes.length

/-- What has been returned and the buffers in the list are the file up to its offset. -/
structure ReaderInv (s : EdBuffredFileReader) (x : Session) : Prop where
  loaded : ∀ info ∈ s.mBufList, info.Loaded
  closed : s.mFile = none → x = none ∧ s.mBufList = []
  opened : ∀ f, s.mFile = some f → f.offset ≤ f.content.length ∧
    ∃ got, x = some (f.content, got) ∧
      got ++ s.mBufList.flatMap EdBufferInfo.bytes = f.content.take f.offset

namespace ReaderInv

variable {s t : EdBuffredFileReader} {x : Session} {rcnt : Int} {log : List ReaderEvent}

lemma frame (h : ReaderInv s x) (hfile : t.mFile = s.mFile) (hlist : t.mBufList = s.mBufList) :
    ReaderInv t x := by
  constructor
  · rw [hlist]
    exact h.loaded
  · rw [hfile, hlist]
    exact h.closed
  · rw [hfile, hlist]
    exact h.opened

lemma load (h : ReaderInv s x) {f : OpenFile} (hf : s.mFile = some f) {n : Nat} (hn : 0 < n)
    (hle : f.offset + n ≤ f.content.length)
    (hfile : t.mFile = some { f with offset := f.offset + n })
    (hlist : t.mBufList =
      s.mBufList ++ [⟨some ((f.content.drop f.offset).take n), n, false⟩]) : ReaderInv t x := by
  obtain ⟨-, got, hx, hgot⟩ := h.opened f hf
  have hbytes : EdBufferInfo.bytes ⟨some ((f.content.drop f.offset).take n), n, false⟩ =
      (f.content.drop f.offset).take n := by
    simp only [EdBufferInfo.bytes, Option.getD_some, Int.toNat_natCast, List.take_take,
      Nat.min_self]
  have hlen : ((f.content.drop f.offset).take n).length = n := by
    rw [List.length_take, List.length_drop]
    omega
  refine ⟨fun info hin => ?_, fun hnone => ?_, fun g hg => ?_⟩
  · rw [hlist, List.mem_append, List.mem_singleton] at hin
    rcases hin with hin | rfl
    · exact h.loaded info hin
    · refine ⟨rfl, ?_, by rw [hbytes, hlen]⟩
      rw [hbytes]
      apply List.ne_nil_of_length_pos
      rw [hlen]
      exact hn
  · rw [hfile] at hnone
    cases hnone
  · rw [hfile] at hg
    cases hg
    refine ⟨hle, got, hx, ?_⟩
    rw [hlist, List.flatMap_append, List.flatMap_singleton, hbytes, ← List.append_assoc, hgot]
    exact List.take_add.symm

lemma loadData (h : ReaderInv s x) (hr : s.canRead rcnt = true) :
    ReaderInv (s.loadData rcnt).2 x ∧ ((s.loadData rcnt).2.mBufList = [] →
      ∀ f, (s.loadData rcnt).2.mFile = some f → f.offset = f.content.length) := by
  unfold EdBuffredFileReader.canRead at hr
  unfold EdBuffredFileReader.loadData EdBuffredFileReader.readFile
  cases hf : s.mFile with
  | none =>
    simp only [hf, decide_eq_true_eq] at hr
    subst hr
    exact ⟨h.frame hf.symm rfl, fun _ f hg => by cases hg⟩
  | some f =>
    simp only [hf] at hr
    split at hr
    · obtain ⟨hpos, -, hle⟩ := of_decide_eq_true hr
      obtain ⟨n, rfl⟩ := Int.eq_ofNat_of_zero_le (Int.le_trans (by decide) hpos)
      have hn : 0 < (n : Int) := by omega
      simp only [hn, if_true, Int.toNat_natCast]
      refine ⟨h.load hf (by omega) (by omega) rfl rfl, fun hnil => ?_⟩
      simp at hnil
    · rename_i hlt
      have hzero : rcnt = 0 := of_decide_eq_true hr
      subst hzero
      refine ⟨h.frame hf.symm rfl, fun _ g hg => ?_⟩
      have hle := (h.opened f hf).1
      cases hg
      dsimp only
      omega

lemma takeFront (h : ReaderInv s (session log)) (hend : s.mBufList = [] →
    ∀ f, s.mFile = some f → f.offset = f.content.length) :
    Delivers log (.returned s.takeFront.1) ∧
      ReaderInv s.takeFront.2 (session (log ++ [.returned s.takeFront.1])) := by
  rw [session_concat]
  unfold EdBuffredFileReader.takeFront
  cases hl : s.mBufList with
  | nil =>
    refine ⟨fun content got hx => ?_, h.loaded, fun hnone => ?_, fun f hf => ?_⟩
    · cases hf : s.mFile with
      | none =>
        rw [(h.closed hf).1] at hx
        cases hx
      | some f =>
        obtain ⟨-, got', hx', hgot⟩ := h.opened f hf
        rw [hx] at hx'
        cases hx'
        rw [hl, hend hl f hf, List.take_length] at hgot
        simpa using hgot
    · refine ⟨?_, hl⟩
      rw [ReaderEvent.next, (h.closed hnone).1]
      rfl
    · obtain ⟨hle, got, hx, hgot⟩ := h.opened f hf
      refine ⟨hle, got, ?_, hgot⟩
      simp [ReaderEvent.next, hx, EdBufferInfo.bytes]
  | cons pbf rest =>
    have hpbf : pbf.Loaded := h.loaded pbf (by simp [hl])
    have hbytes : EdBufferInfo.bytes ⟨pbf.buf, pbf.size, true⟩ = pbf.bytes := rfl
    refine ⟨fun content got hx => ?_, fun info hin => ?_, fun hnone => ?_, fun f hf => ?_⟩
    · dsimp only
      rw [if_pos hpbf.buf, hbytes]
      refine ⟨hpbf.bytes, hpbf.size, ?_⟩
      cases hf : s.mFile with
      | none =>
        rw [(h.closed hf).1] at hx
        cases hx
      | some f =>
        obtain ⟨-, got', hx', hgot⟩ := h.opened f hf
        rw [hx] at hx'
        cases hx'
        rw [hl, List.flatMap_cons, ← List.append_assoc] at hgot
        exact (List.prefix_append _ _).trans (hgot ▸ List.take_prefix _ _)
    · exact h.loaded info (by rw [hl]; exact List.mem_cons_of_mem _ hin)
    · have hnil := (h.closed hnone).2
      rw [hl] at hnil
      cases hnil
    · obtain ⟨hle, got, hx, hgot⟩ := h.opened f hf
      refine ⟨hle, got ++ pbf.bytes, ?_, ?_⟩
      · rw [ReaderEvent.next, hx, hbytes]
        rfl
      · rw [hl, List.flatMap_cons, ← List.append_assoc] at hgot
        exact hgot

lemma getData (h : ReaderInv s (session log))
    (hr : s.mBufList.length ≠ 0 ∨ s.canRead rcnt = true) :
    Delivers log (.returned (s.getData rcnt).1) ∧
      ReaderInv (s.getData rcnt).2 (session (log ++ [.returned (s.getData rcnt).1])) := by
  unfold EdBuffredFileReader.getData
  by_cases hlen : s.mBufList.length = 0
  · obtain ⟨hload, hend⟩ := h.loadData (hr.resolve_left (not_not.mpr hlen))
    obtain ⟨hdel, hinv⟩ := hload.takeFront hend
    simp only [hlen, if_true]
    refine ⟨hdel, ?_⟩
    split
    · exact hinv.frame rfl rfl
    · exact hinv
  · obtain ⟨hdel, hinv⟩ := h.takeFront (fun hnil => absurd (by rw [hnil]; rfl) hlen)
    simp only [hlen, if_false]
    refine ⟨hdel, ?_⟩
    split
    · exact hinv.frame rfl rfl
    · exact hinv

lemma jobEvent (h : ReaderInv s x) (hr : s.canRead rcnt = true) :
    ReaderInv (s.jobEvent rcnt) x := by
  have hread : ReaderInv
      { s with mJobEvent := s.mJobEvent.map (fun _ => 0), mIsScheduled := false } x :=
    h.frame rfl rfl
  obtain ⟨hload, -⟩ := hread.loadData hr
  unfold EdBuffredFileReader.jobEvent
  dsimp only
  split
  · exact hload.frame rfl rfl
  · exact hload

lemma opened_file (h : ReaderInv s x) (hf : s.mFile = none) (content : List UInt8)
    (block_unit qsize : Int) (eventfd : Bool) :
    ReaderInv (s.opened content block_unit qsize eventfd) (some (content, [])) := by
  refine ⟨h.loaded, fun hnone => ?_, fun f hg => ?_⟩
  · cases hnone
  cases hg
  refine ⟨Nat.zero_le _, [], rfl, ?_⟩
  simp [EdBuffredFileReader.opened, (h.closed hf).2]

lemma close_file (s : EdBuffredFileReader) : ReaderInv s.close none := by
  refine ⟨fun info hin => ?_, fun _ => ⟨rfl, rfl⟩, fun f hf => by cases hf⟩
  cases hin

end ReaderInv

/-- What a step adds to the log is delivered. -/
theorem step_readerInv {s t : Recorded EdBuffredFileReader ReaderEvent}
    {a : EdBuffredFileReader.Action} (h : ReaderInv s.state (session s.log))
    (hlog : Always Delivers s.log) (hs : fileReader.step s a = some t) :
    ReaderInv t.state (session t.log) ∧ Always Delivers t.log := by
  obtain ⟨hstep, hl⟩ := recorded_step hs
  rw [hl]
  cases a with
  | opened content block_unit qsize eventfd =>
    simp only [EdBuffredFileReader.step, Option.ite_none_right_eq_some, Option.some.injEq] at hstep
    simp only [readerEvent, Option.toList_some, session_concat, ← hstep.2]
    exact ⟨h.opened_file hstep.1 content block_unit qsize eventfd,
      always_concat.mpr ⟨hlog, trivial⟩⟩
  | close =>
    simp only [EdBuffredFileReader.step, Option.some.injEq] at hstep
    simp only [readerEvent, Option.toList_some, session_concat, ← hstep]
    exact ⟨.close_file s.state, always_concat.mpr ⟨hlog, trivial⟩⟩
  | getData rcnt =>
    simp only [EdBuffredFileReader.step, Option.ite_none_right_eq_some, Option.some.injEq] at hstep
    simp only [readerEvent, Option.toList_some, ← hstep.2]
    obtain ⟨hdel, hinv⟩ := h.getData hstep.1
    exact ⟨hinv, always_concat.mpr ⟨hlog, hdel⟩⟩
  | jobEvent rcnt =>
    simp only [EdBuffredFileReader.step, Option.ite_none_right_eq_some, Option.some.injEq] at hstep
    simp only [readerEvent, Option.toList_none, List.append_nil, ← hstep.2]
    exact ⟨h.jobEvent hstep.1.2, hlog⟩

/-- In every run the buffers that `getData` has returned are the start of the file, and all of
it once no buffer is returned. -/
theorem delivers_file {s : Recorded EdBuffredFileReader ReaderEvent} (h : fileReader.Reachable s) :
    (∀ content got, session s.log = some (content, got) → got <+: content) ∧
      Always Delivers s.log := by
  have hI : ReaderInv s.state (session s.log) ∧ Always Delivers s.log := by
    apply h.invariant
    · rintro ⟨s, log⟩ ⟨rfl, rfl⟩
      refine ⟨⟨fun info hin => ?_, fun _ => ⟨rfl, rfl⟩, fun f hf => by cases hf⟩, .nil⟩
      cases hin
    · intro s a t _ hI _ hs
      exact step_readerInv hI.1 hI.2 hs
  refine ⟨fun content got hx => ?_, hI.2⟩
  cases hf : s.state.mFile with
  | none =>
    rw [(hI.1.closed hf).1] at hx
    cases hx
  | some f =>
    obtain ⟨-, got', hx', hgot⟩ := hI.1.opened f hf
    rw [hx] at hx'
    cases hx'
    exact (List.prefix_append _ _).trans (hgot ▸ List.take_prefix _ _)

/-- Short reads by `getData` and by the job, up to the end of the file. -/
theorem delivers_file_shortReads : ∃ s, fileReader.Reachable s ∧
    session s.log = some ([1, 2, 3], [1, 2, 3]) ∧ Always Delivers s.log := by
  obtain ⟨s, hr, hs⟩ := System.exists_of_exec (M := fileReader) (s := ⟨.new, []⟩)
    (f := fun s => session s.log) (b := some ([1, 2, 3], [1, 2, 3])) ⟨rfl, rfl⟩
    (l := [.opened [1, 2, 3] 1 2 true, .getData 1, .jobEvent 1, .getData 0, .jobEvent 1,
      .getData 0, .getData 0]) (by decide +kernel)
  exact ⟨s, hr, hs, (delivers_file hr).2⟩

end EdNio.Buffer
