import EdNio.Buffer.FileReader

/-!
# How far the reader reads ahead

The job loads a block before it looks at the limit. It runs only when `mJobEvent` has been
raised, which is done when there is room for one block more. Here a `read` may return
anything, as it does when the file changes or cannot be read.
-/

namespace EdNio.Buffer
open Transition

namespace EdBuffredFileReader

def prefetchStep (s : EdBuffredFileReader) : Action → Option EdBuffredFileReader
  | .opened content block_unit qsize eventfd =>
    if s.mFile = none then some (s.opened content block_unit qsize eventfd) else none
  | .close => some s.close
  | .getData rcnt => some (s.getData rcnt).2
  | .jobEvent rcnt => if s.mJobEvent.any (fun n => 0 < n) then some (s.jobEvent rcnt) else none

/-- All runs of a reader, whatever `read` returns. -/
def prefetcher : System EdBuffredFileReader Action where
  init s := s = .new
  step := prefetchStep

/-- `open` is called with room for a block. -/
def OpensRoom : EdBuffredFileReader → Action → Prop
  | _, .opened _ _ qsize _ => 1 ≤ qsize
  | _, _ => True

instance (s : EdBuffredFileReader) (a : Action) : Decidable (OpensRoom s a) :=
  match a with
  | .opened _ _ qsize _ => inferInstanceAs (Decidable (1 ≤ qsize))
  | .close | .getData _ | .jobEvent _ => .isTrue trivial

/-- The event of the job is pending. -/
def Raised (s : EdBuffredFileReader) : Prop :=
  ∃ n, s.mJobEvent = some n ∧ 0 < n

/-- While the job is due there is room for its block. -/
structure PrefetchInv (s : EdBuffredFileReader) : Prop where
  bound : s.mBufList.length ≤ s.mQSize
  raised : s.Raised → s.mBufList.length < s.mQSize
  closed : s.mFile = none → s.mBufList = [] ∧ s.mJobEvent = none
  opened : s.mFile ≠ none → 1 ≤ s.mQSize

variable {s t : EdBuffredFileReader} {rcnt : Int} {a : Action}

/-- The limit is the same, and nothing was opened. -/
structure Stays (s t : EdBuffredFileReader) : Prop where
  qsize : t.mQSize = s.mQSize
  file : t.mFile = none ↔ s.mFile = none
  event : s.mJobEvent = none → t.mJobEvent = none

lemma Stays.trans {u : EdBuffredFileReader} (h : Stays s t) (h' : Stays t u) : Stays s u :=
  ⟨h'.qsize.trans h.qsize, h'.file.trans h.file, fun hs => h'.event (h.event hs)⟩

lemma Stays.raise (s : EdBuffredFileReader) : Stays s s.raise :=
  ⟨rfl, Iff.rfl, fun hs => by simp [EdBuffredFileReader.raise, hs]⟩

lemma loadData_pos (h : 0 < rcnt) : s.loadData rcnt = (rcnt, { s with
    mFile := (s.readFile rcnt).2
    mBufList := s.mBufList ++ [⟨some (s.readFile rcnt).1, rcnt, false⟩] }) :=
  if_pos h

lemma loadData_end (h : ¬ 0 < rcnt) :
    s.loadData rcnt = (0, { s with mFile := (s.readFile rcnt).2, mEof := true }) :=
  if_neg h

lemma readFile_none (s : EdBuffredFileReader) (rcnt : Int) :
    (s.readFile rcnt).2 = none ↔ s.mFile = none := by
  unfold readFile
  cases s.mFile <;> simp

lemma Stays.loadData (s : EdBuffredFileReader) (rcnt : Int) : Stays s (s.loadData rcnt).2 := by
  by_cases h : 0 < rcnt
  · rw [loadData_pos h]
    exact ⟨rfl, readFile_none s rcnt, id⟩
  · rw [loadData_end h]
    exact ⟨rfl, readFile_none s rcnt, id⟩

lemma Stays.takeFront (s : EdBuffredFileReader) : Stays s s.takeFront.2 := by
  unfold EdBuffredFileReader.takeFront
  split <;> exact ⟨rfl, Iff.rfl, id⟩

lemma length_loadData (s : EdBuffredFileReader) (rcnt : Int) :
    (s.loadData rcnt).2.mBufList.length = s.mBufList.length + if 0 < rcnt then 1 else 0 := by
  by_cases h : 0 < rcnt
  · rw [loadData_pos h, if_pos h]
    exact List.length_append
  · rw [loadData_end h, if_neg h]
    rfl

lemma length_takeFront (s : EdBuffredFileReader) :
    s.takeFront.2.mBufList.length = s.mBufList.length - 1 := by
  unfold EdBuffredFileReader.takeFront
  split <;> simp [*]

/-- `getData` after it has taken a buffer. -/
def taken (s : EdBuffredFileReader) (rcnt : Int) : EdBuffredFileReader :=
  (if s.mBufList.length = 0 then (s.loadData rcnt).2 else s).takeFront.2

lemma getData_eq (s : EdBuffredFileReader) (rcnt : Int) : (s.getData rcnt).2 =
    if (s.taken rcnt).mBufList.length ≤ (s.taken rcnt).mQSize ∧ (s.taken rcnt).mEof = false then
      (s.taken rcnt).raise
    else s.taken rcnt :=
  rfl

/-- A block is loaded only into an empty list, and is taken at once. -/
lemma length_taken (s : EdBuffredFileReader) (rcnt : Int) :
    (s.taken rcnt).mBufList.length = s.mBufList.length - 1 := by
  rw [taken, length_takeFront]
  by_cases hl : s.mBufList.length = 0
  · rw [if_pos hl, length_loadData, hl]
    split <;> rfl
  · rw [if_neg hl]

lemma Stays.taken (s : EdBuffredFileReader) (rcnt : Int) : Stays s (s.taken rcnt) := by
  rw [EdBuffredFileReader.taken]
  by_cases hl : s.mBufList.length = 0
  · rw [if_pos hl]
    exact (Stays.loadData s rcnt).trans (Stays.takeFront _)
  · rw [if_neg hl]
    exact Stays.takeFront s

namespace PrefetchInv

lemma init : PrefetchInv .new := by
  refine ⟨Int.le_refl _, ?_, fun _ => ⟨rfl, rfl⟩, fun h => absurd rfl h⟩
  rintro ⟨n, hn, -⟩
  cases hn

/-- After a step that keeps the limit there is room for one block. -/
lemma of_stays (h : PrefetchInv s) (hst : Stays s t) (hroom : t.mBufList.length ≤ s.mQSize)
    (hraised : t.Raised → t.mBufList.length < s.mQSize)
    (hclosed : s.mFile = none → t.mBufList = []) : PrefetchInv t := by
  constructor
  · rw [hst.qsize]
    exact hroom
  · rw [hst.qsize]
    exact hraised
  · intro hf
    have hf' := hst.file.mp hf
    exact ⟨hclosed hf', hst.event (h.closed hf').2⟩
  · intro hf
    rw [hst.qsize]
    exact h.opened fun hf' => hf (hst.file.mpr hf')

lemma taken (h : PrefetchInv s) (rcnt : Int) :
    PrefetchInv (s.taken rcnt) ∧ ((s.taken rcnt).mFile ≠ none →
      (s.taken rcnt).mBufList.length < (s.taken rcnt).mQSize) := by
  have hlen := length_taken s rcnt
  have hst := Stays.taken s rcnt
  have hb := h.bound
  have hlt : s.mFile ≠ none → (s.taken rcnt).mBufList.length < s.mQSize := by
    intro hf
    have := h.opened hf
    omega
  refine ⟨h.of_stays hst (by omega) ?_ ?_, ?_⟩
  · rintro ⟨n, hn, hpos⟩
    apply hlt
    intro hf
    rw [hst.event (h.closed hf).2] at hn
    cases hn
  · intro hf
    rw [(h.closed hf).1, List.length_nil] at hlen
    exact List.eq_nil_of_length_eq_zero hlen
  · intro hf
    rw [hst.qsize]
    exact hlt fun hf' => hf (hst.file.mpr hf')

lemma getData (h : PrefetchInv s) (rcnt : Int) : PrefetchInv (s.getData rcnt).2 := by
  obtain ⟨ht, hlt⟩ := h.taken rcnt
  rw [getData_eq]
  split
  · refine ht.of_stays (Stays.raise _) ht.bound ?_ (fun hf => (ht.closed hf).1)
    rintro ⟨n, hn, -⟩
    apply hlt
    intro hf
    rw [(Stays.raise _).event (ht.closed hf).2] at hn
    cases hn
  · exact ht

/-- The job is due, so its block fits; it is due again only if one more does. -/
lemma jobEvent (h : PrefetchInv s) (hr : s.Raised) (rcnt : Int) :
    PrefetchInv (s.jobEvent rcnt) := by
  have hlt := h.raised hr
  have hopen : s.mFile ≠ none := by
    intro hf
    obtain ⟨n, hn, -⟩ := hr
    rw [(h.closed hf).2] at hn
    cases hn
  let u : EdBuffredFileReader :=
    { s with mJobEvent := s.mJobEvent.map (fun _ => 0), mIsScheduled := false }
  have hu : Stays s u := ⟨rfl, Iff.rfl, fun hs => by simp [u, hs]⟩
  have hst : Stays s (u.loadData rcnt).2 := hu.trans (Stays.loadData u rcnt)
  have hlen : (u.loadData rcnt).2.mBufList.length ≤ s.mBufList.length + 1 := by
    rw [length_loadData]
    split <;> simp [u]
  have hevent : (u.loadData rcnt).2.mJobEvent = u.mJobEvent := by
    by_cases hpos : 0 < rcnt
    · rw [loadData_pos hpos]
    · rw [loadData_end hpos]
  have heq : s.jobEvent rcnt =
      if (u.loadData rcnt).2.mBufList.length < (u.loadData rcnt).2.mQSize ∧
          0 < (u.loadData rcnt).1 then
        { (u.loadData rcnt).2.raise with mIsScheduled := true }
      else (u.loadData rcnt).2 := rfl
  rw [heq]
  split
  · rename_i hroom
    rw [hst.qsize] at hroom
    refine h.of_stays (hst.trans ⟨rfl, Iff.rfl, (Stays.raise _).event⟩) ?_ (fun _ => hroom.1)
      (fun hf => absurd hf hopen)
    exact Int.le_of_lt hroom.1
  · refine h.of_stays hst (by omega) ?_ (fun hf => absurd hf hopen)
    rintro ⟨n, hn, hpos⟩
    rw [hevent, Option.map_eq_some_iff] at hn
    obtain ⟨-, -, rfl⟩ := hn
    exact absurd hpos (Nat.lt_irrefl 0)

lemma step (h : PrefetchInv s) (hok : OpensRoom s a) (hs : s.prefetchStep a = some t) :
    PrefetchInv t := by
  cases a with
  | opened content block_unit qsize eventfd =>
    simp only [prefetchStep, Option.ite_none_right_eq_some, Option.some.injEq] at hs
    obtain ⟨hf, rfl⟩ := hs
    have hlist : (s.opened content block_unit qsize eventfd).mBufList = [] := (h.closed hf).1
    have hq : (1 : Int) ≤ qsize := hok
    constructor
    · rw [hlist]
      exact Int.le_trans (by decide) hq
    · intro _
      rw [hlist]
      exact Int.lt_of_lt_of_le (by decide) hq
    · intro hnone
      cases hnone
    · exact fun _ => hq
  | close =>
    obtain rfl := Option.some.inj hs
    refine ⟨?_, ?_, fun _ => ⟨rfl, rfl⟩, fun hf => absurd rfl hf⟩
    · exact Int.le_trans (Int.natCast_nonneg _) h.bound
    · rintro ⟨n, hn, -⟩
      cases hn
  | getData rcnt =>
    obtain rfl := Option.some.inj hs
    exact h.getData rcnt
  | jobEvent rcnt =>
    rw [prefetchStep, Option.ite_none_right_eq_some] at hs
    obtain ⟨hraised, hs⟩ := hs
    obtain rfl := Option.some.inj hs
    refine h.jobEvent ?_ rcnt
    rw [Option.any_eq_true] at hraised
    obtain ⟨n, hn, hpos⟩ := hraised
    exact ⟨n, hn, of_decide_eq_true hpos⟩

end PrefetchInv

/-- In every run of files opened with room for a block, whatever their reads return, the list
of blocks never holds more of them than `mQSize`. -/
theorem prefetch_bounded (h : prefetcher.Reaches OpensRoom s) : s.mBufList.length ≤ s.mQSize := by
  have hI : PrefetchInv s := by
    refine h.invariant (I := PrefetchInv) ?_ ?_
    · rintro s rfl
      exact PrefetchInv.init
    · intro s a t _ hI hok hs
      exact hI.step hok hs
  exact hI.bound

/-- Of two raises one is lost, and the job still fills the list to the limit. -/
theorem prefetch_bounded_full : ∃ s, prefetcher.Reaches OpensRoom s ∧
    s.mBufList.length = 2 ∧ s.mQSize = 2 ∧ (s.mBufList.length : Int) ≤ s.mQSize := by
  obtain ⟨s, hr, hs⟩ := System.exists_of_exec_restrict (M := prefetcher) (s := .new)
    (T := fun s a => decide (OpensRoom s a)) (f := fun s => (s.mBufList.length, s.mQSize))
    (b := (2, 2)) rfl (l := [.opened [1, 2, 3, 4] 1 2 true, .getData 1, .getData 1, .jobEvent 1,
      .jobEvent 1]) (by decide +kernel)
  obtain ⟨hlen, hq⟩ := Prod.mk.inj hs
  exact ⟨s, hr.mono fun _ _ hok => of_decide_eq_true hok, hlen, hq,
    prefetch_bounded (hr.mono fun _ _ hok => of_decide_eq_true hok)⟩

end EdBuffredFileReader

end EdNio.Buffer
