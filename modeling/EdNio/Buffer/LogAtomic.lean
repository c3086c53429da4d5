import EdNio.Buffer.EdLog
import EdNio.Library.Transition

/-!
# A print that gives up

`print` drops records until the new one fits, and learns only then that it never will. The
calls here print strings of any length, so that the log may hold empty records: the length
of a record is kept in 16 bits.
-/

namespace EdNio.Buffer
open Transition

/-- The bytes of any string of C before its NUL. -/
abbrev CString := { str : List UInt8 // 0 ∉ str }

inductive AnyLogOp
  | print (str : CString)
  | flush (count : Int)
  | dumpAll

namespace EdLog

def anyCall (log : EdLog) (low : Bool) (left : Leftover) : AnyLogOp → Option EdLog
  | .print str => (log.print low left.slen str.1).map Prod.snd
  | .flush count => (log.flush low (left.slen 0) left.logstr count).map Prod.snd
  | .dumpAll => (log.dumpAll low (left.slen 0) left.logstr).map Prod.snd

/-- All runs on a new log of `bsize` bytes. A call that leaves its memory ends the run. -/
def anyLog (low : Bool) (bsize : Int) (junk : Nat → UInt8) :
    System EdLog (Leftover × AnyLogOp) where
  init log := log = EdLog.new bsize junk
  step log op := log.anyCall low op.1 op.2

/-- A `print` that returns -1 leaves the ring as it was. -/
def FailsAtomic (low : Bool) (log : EdLog) (str : List UInt8) : Prop :=
  ∀ slen log', log.print low slen str = some (-1, log') →
    log'.mQue.contents = log.mQue.contents

/-- The record of `str` fits into `B` bytes, also beside every empty record of the log with
what follows it. -/
def FitsLog (low : Bool) (B : Nat) (cs : List Chunk) (str : List UInt8) : Prop :=
  (frame low (stored str)).length ≤ B ∧
    ∀ front c back, cs = front ++ c :: back → c.1 = [] →
      (frames low (c :: back)).length + (frame low (stored str)).length ≤ B

variable {low : Bool} {B n : Nat} {log log' : EdLog} {cs : List Chunk} {q q' : EdRingQue}
  {s : BoundedFifo UInt8 B}

lemma frames_suffix_le {front cs : List Chunk} :
    (frames low cs).length ≤ (frames low (front ++ cs)).length := by
  rw [frames_append, List.length_append]
  exact Nat.le_add_left _ _

lemma evict_fst_iff : (evict low B n cs).1 = true ↔ n ≤ B ∧
    ∀ front c back, cs = front ++ c :: back → c.1 = [] →
      (frames low (c :: back)).length + n ≤ B := by
  induction cs with
  | nil => simp [evict]
  | cons d cs ih =>
    rw [evict]
    by_cases hroom : (frames low (d :: cs)).length + n ≤ B
    · rw [if_pos hroom]
      refine ⟨fun _ => ⟨by omega, fun front c back hcs _ => ?_⟩, fun _ => rfl⟩
      have hle : (frames low (c :: back)).length ≤ (frames low (front ++ c :: back)).length :=
        frames_suffix_le
      rw [← hcs] at hle
      omega
    · rw [if_neg hroom]
      by_cases hd : d.1 = []
      · rw [if_pos hd]
        exact ⟨fun h => Bool.noConfusion h, fun h => absurd (h.2 [] d cs rfl hd) hroom⟩
      · rw [if_neg hd, ih]
        apply and_congr_right
        intro _
        constructor
        · intro h front c back hcs hc
          cases front with
          | nil =>
            obtain ⟨rfl, -⟩ := List.cons.inj hcs
            exact absurd hc hd
          | cons f front => exact h front c back (List.cons.inj hcs).2 hc
        · intro h front c back hcs hc
          exact h (d :: front) c back (by rw [hcs]; rfl) hc

lemma evict_length_le : (frames low (evict low B n cs).2).length ≤ (frames low cs).length := by
  induction cs with
  | nil => exact Nat.le_refl _
  | cons d cs ih =>
    have hle : (frames low cs).length ≤ (frames low ([d] ++ cs)).length := frames_suffix_le
    rw [evict]
    by_cases hroom : (frames low (d :: cs)).length + n ≤ B
    · rw [if_pos hroom]
    · rw [if_neg hroom]
      by_cases hd : d.1 = []
      · rw [if_pos hd]
        exact hle
      · rw [if_neg hd]
        exact Nat.le_trans ih hle

/-- A loop that gives up has dropped something, if there was something. -/
lemma evict_length_lt (h : (evict low B n cs).1 = false) (hcs : cs ≠ []) :
    (frames low (evict low B n cs).2).length < (frames low cs).length := by
  cases cs with
  | nil => exact absurd rfl hcs
  | cons d cs =>
    have hlt : (frames low cs).length < (frames low (d :: cs)).length := by
      rw [frames_cons, List.length_append, length_frame]
      omega
    rw [evict] at h ⊢
    by_cases hroom : (frames low (d :: cs)).length + n ≤ B
    · rw [if_pos hroom] at h
      cases h
    · rw [if_neg hroom]
      by_cases hd : d.1 = []
      · rw [if_pos hd]
        exact hlt
      · rw [if_neg hd]
        exact Nat.lt_of_le_of_lt evict_length_le hlt

/-- The ring holds whole frames. -/
def Framed (low : Bool) (B : Nat) (q : EdRingQue) : Prop :=
  ∃ (s : BoundedFifo UInt8 B) (cs : List Chunk), q.Represents s ∧ s.items = frames low cs

lemma u16_le (n : UInt16) : n.toNat ≤ 65535 :=
  Nat.le_of_lt_succ n.toNat_lt

/-- Whatever the block for the lines holds, `flush` takes whole frames. -/
lemma flushLoop_framed (hB : B + 65535 ≤ 2 ^ 31) {loop : Nat} {slen : UInt16}
    {logstr : Memory.Block} {lines : List (List UInt8)} (h : Framed low B q)
    (hf : flushLoop low loop slen logstr q = some (lines, q')) : Framed low B q' := by
  induction loop generalizing slen logstr lines q with
  | zero =>
    obtain ⟨-, rfl⟩ := Prod.mk.inj (Option.some.inj hf)
    exact h
  | succ loop ih =>
    obtain ⟨s, cs, hr, hs⟩ := h
    cases cs with
    | nil =>
      obtain ⟨q₁, s₁, hq₁, h₁, hs₁⟩ :=
        get_end hr (fits_u16 hB (show 2 ≤ 65535 by omega)) hs true
      have hf' : some ([], q₁) = some (lines, q') :=
        (congrArg (fun o => Option.bind o _) hq₁).symm.trans hf
      obtain ⟨-, rfl⟩ := Prod.mk.inj (Option.some.inj hf')
      exact ⟨s₁, [], h₁, hs₁⟩
    | cons c cs =>
      rw [frames_cons] at hs
      obtain ⟨q₁, q₂, s₂, hq₁, hq₂, h₂, hs₂⟩ := get_frame hr hB hs true
      rw [flushLoop, hq₁, Option.bind_some] at hf
      dsimp only at hf
      rw [if_neg (by decide), copyU16_u16Bytes, toNat_ofNat_chunk, hq₂, Option.bind_some] at hf
      simp only [Option.bind_eq_some_iff, Option.map_eq_some_iff, Prod.exists,
        Prod.mk.injEq] at hf
      obtain ⟨logstr', -, line, -, lines', q₃, hf, -, rfl⟩ := hf
      exact ih ⟨s₂, cs, h₂, hs₂⟩ hf

lemma peekNext_items (hr : q.Represents s) {buf : Bool} {size : Nat}
    (hfit : EdRingQue.Fits B size) {out : Out} (hq : q.peekNext buf size = some (out, q')) :
    ∃ s' : BoundedFifo UInt8 B, q'.Represents s' ∧ s'.items = s.items := by
  obtain ⟨out', q₁, hq₁, h₁, -⟩ := hr.peekNext hfit buf
  rw [hq] at hq₁
  obtain ⟨-, rfl⟩ := Prod.mk.inj (Option.some.inj hq₁)
  exact ⟨_, h₁, rfl⟩

lemma dumpLoop_items (hB : B + 65535 ≤ 2 ^ 31) {fuel : Nat} {rdcnt : Int} {slen : UInt16}
    {logstr : Memory.Block} {lines : List (List UInt8)} (hr : q.Represents s)
    (hd : dumpLoop low fuel rdcnt slen logstr q = some (lines, q')) :
    ∃ s' : BoundedFifo UInt8 B, q'.Represents s' ∧ s'.items = s.items := by
  induction fuel generalizing rdcnt slen logstr lines q s with
  | zero => cases hd
  | succ fuel ih =>
    rw [dumpLoop] at hd
    by_cases hzero : rdcnt = 0
    · rw [if_pos hzero] at hd
      obtain ⟨-, rfl⟩ := Prod.mk.inj (Option.some.inj hd)
      exact ⟨s, hr, rfl⟩
    · rw [if_neg hzero] at hd
      simp only [Option.bind_eq_some_iff, Option.map_eq_some_iff, Prod.exists,
        Prod.mk.injEq] at hd
      obtain ⟨line, -, ret₁, out₁, q₁, hq₁, ret₂, out₂, q₂, hq₂, logstr', -, lines', q₃, hd, -,
        rfl⟩ := hd
      obtain ⟨s₁, h₁, hs₁⟩ := peekNext_items hr (fits_u16 hB (show 2 ≤ 65535 by omega)) hq₁
      obtain ⟨s₂, h₂, hs₂⟩ := peekNext_items h₁ (fits_u16 hB (u16_le _)) hq₂
      obtain ⟨s₃, h₃, hs₃⟩ := ih h₂ hd
      exact ⟨s₃, h₃, hs₃.trans (hs₂.trans hs₁)⟩

lemma dumpAll_items (hB : B + 65535 ≤ 2 ^ 31) {slen : UInt16} {junk : Nat → UInt8}
    {lines : List (List UInt8)} (hr : log.mQue.Represents s)
    (hd : log.dumpAll low slen junk = some (lines, log')) :
    ∃ s' : BoundedFifo UInt8 B, log'.mQue.Represents s' ∧ s'.items = s.items := by
  obtain ⟨q₁, hq₁, h₁⟩ := hr.peek (fits_u16 hB (show 2 ≤ 65535 by omega)) true
  have hq₁' : log.mQue.peek true 2 = some (_, q₁) := hq₁
  rw [EdLog.dumpAll, hq₁', Option.bind_some] at hd
  simp only [Option.bind_eq_some_iff, Option.map_eq_some_iff, Prod.exists, Prod.mk.injEq] at hd
  obtain ⟨ret₂, out₂, q₂, hq₂, logstr, -, lines', q₃, hd, -, rfl⟩ := hd
  obtain ⟨s₂, h₂, hs₂⟩ := peekNext_items h₁ (fits_u16 hB (u16_le _)) hq₂
  obtain ⟨s₃, h₃, hs₃⟩ := dumpLoop_items hB h₂ hd
  exact ⟨s₃, h₃, hs₃.trans hs₂⟩

lemma Framed.anyCall (hB : B + 65535 ≤ 2 ^ 31) (h : Framed low B log.mQue) {left : Leftover}
    {op : AnyLogOp} (hc : log.anyCall low left op = some log') : Framed low B log'.mQue := by
  obtain ⟨s, cs, hr, hs⟩ := h
  cases op with
  | print str =>
    obtain ⟨log₁, s₁, hp, h₁, hs₁⟩ := print_eq hB left.slen str.1 hr hs rfl
    rw [EdLog.anyCall, hp] at hc
    obtain rfl := Option.some.inj hc
    exact ⟨s₁, _, h₁, hs₁⟩
  | flush count =>
    simp only [EdLog.anyCall, EdLog.flush, Option.map_eq_some_iff, Prod.exists,
      exists_eq_right] at hc
    obtain ⟨lines, lines', q', hf, heq⟩ := hc
    obtain ⟨-, rfl⟩ := Prod.mk.inj heq
    exact flushLoop_framed hB ⟨s, cs, hr, hs⟩ hf
  | dumpAll =>
    simp only [EdLog.anyCall, Option.map_eq_some_iff, Prod.exists, exists_eq_right] at hc
    obtain ⟨lines, hd⟩ := hc
    obtain ⟨s', hr', hs'⟩ := dumpAll_items hB hr hd
    exact ⟨s', cs, hr', hs'.trans hs⟩

lemma Framed.reaches {junk : Nat → UInt8} (hB : 1 ≤ B) (hB' : B + 65535 ≤ 2 ^ 31)
    (h : (anyLog low B junk).Reachable log) : Framed low B log.mQue := by
  refine h.invariant (I := fun log => Framed low B log.mQue) ?_ ?_
  · rintro log rfl
    exact ⟨BoundedFifo.empty, [], ⟨0, 0, 0, EdRingQue.Holds.new junk hB⟩, rfl⟩
  · intro log op log' _ hf _ hc
    exact hf.anyCall hB' hc

/-- `print` gives up without a loss if and only if it had nothing to lose or does not give
up. -/
lemma failsAtomic_iff (hB : B + 65535 ≤ 2 ^ 31) (hr : log.mQue.Represents s)
    (hs : s.items = frames low cs) (str : List UInt8) :
    FailsAtomic low log str ↔ cs = [] ∨ FitsLog low B cs str := by
  have hfst : (evict low B (frame low (stored str)).length cs).1 = true ↔
      FitsLog low B cs str := evict_fst_iff
  have hcontents : log.mQue.contents = frames low cs := hr.contents.trans hs
  constructor
  · intro h
    by_cases hcs : cs = []
    · exact .inl hcs
    · right
      apply hfst.mp
      by_cases he : (evict low B (frame low (stored str)).length cs).1 = true
      · exact he
      · obtain ⟨log', s', hp, hr', hs'⟩ := print_eq hB (fun _ => 0) str hr hs rfl
        rw [if_neg he] at hp hs'
        have hsame := h _ _ hp
        rw [hr'.contents, hs', hcontents] at hsame
        have hlt := evict_length_lt (Bool.eq_false_iff.mpr he) hcs
        rw [hsame] at hlt
        exact absurd hlt (Nat.lt_irrefl _)
  · intro h slen log' hp
    obtain ⟨log₁, s₁, hp₁, hr₁, hs₁⟩ := print_eq hB slen str hr hs rfl
    rw [hp, Option.some.injEq, Prod.mk.injEq] at hp₁
    obtain ⟨hret, rfl⟩ := hp₁
    rcases h with rfl | hfit
    · by_cases he : (evict low B (frame low (stored str)).length []).1 = true
      · rw [if_pos he] at hret
        exact absurd hret (by decide)
      · rw [if_neg he] at hs₁
        rw [hr₁.contents, hs₁, hcontents, evict]
    · rw [if_pos (hfst.mpr hfit)] at hret
      exact absurd hret (by decide)

/-- In every log that can be reached, a `print` that returns -1 leaves the records as they
were if and only if there are none or it does not return -1: the record fits into the log and
beside every empty record in it. -/
theorem print_fails_atomic_iff (hB : 1 ≤ B) (hB' : B + 65535 ≤ 2 ^ 31) (low : Bool)
    (junk : Nat → UInt8) (h : (anyLog low B junk).Reachable log) :
    ∃ cs, log.mQue.contents = frames low cs ∧
      ∀ str, FailsAtomic low log str ↔ cs = [] ∨ FitsLog low B cs str := by
  obtain ⟨s, cs, hr, hs⟩ := Framed.reaches hB hB' h
  exact ⟨cs, hr.contents.trans hs, fun str => failsAtomic_iff hB' hr hs str⟩

/-- The memory of a call that happens to be zero. -/
def zeroed : Leftover :=
  ⟨fun _ => 0, fun _ => 0⟩

theorem print_fails_atomic_iff_printed : ∃ log cs, (anyLog true 8 (fun _ => 0)).Reachable log ∧
    log.mQue.contents = [3, 0, 65, 66, 0] ∧ log.mQue.contents = frames true cs ∧
    ∀ str, FailsAtomic true log str ↔ cs = [] ∨ FitsLog true 8 cs str := by
  obtain ⟨log, hr, hlog⟩ := System.exists_of_exec (M := anyLog true 8 (fun _ => 0)) rfl
    (l := [(zeroed, .print ⟨[65, 66], by decide⟩)]) (f := fun log => log.mQue.contents)
    (b := [3, 0, 65, 66, 0]) (by decide +kernel)
  obtain ⟨cs, hcs, hiff⟩ :=
    print_fails_atomic_iff (B := 8) (by decide) (by decide) true (fun _ => 0) hr
  exact ⟨log, cs, hr, hlog, hcs, hiff⟩

/-- A message of ten bytes takes the one before it with it and is not stored itself. -/
theorem not_print_fails_atomic : ¬ ∀ (B : Nat) (log : EdLog),
    (anyLog true B (fun _ => 0)).Reachable log → ∀ str : CString, FailsAtomic true log str.1 := by
  intro h
  obtain ⟨log, hr, hlog⟩ := System.exists_of_exec (M := anyLog true 8 (fun _ => 0)) rfl
    (l := [(zeroed, .print ⟨[65, 66], by decide⟩)])
    (f := fun log => (log.mQue.contents,
      (log.print true (fun _ => 0) (List.replicate 10 67)).map
        (fun p => (p.1, p.2.mQue.contents))))
    (b := ([3, 0, 65, 66, 0], some (-1, []))) (by decide +kernel)
  obtain ⟨hbefore, hprint⟩ := Prod.mk.inj hlog
  obtain ⟨⟨ret, log'⟩, hp, hobs⟩ := Option.map_eq_some_iff.mp hprint
  obtain ⟨rfl, hafter⟩ := Prod.mk.inj hobs
  have hsame := h 8 log hr ⟨List.replicate 10 67, by decide⟩ (fun _ => 0) log' hp
  rw [hbefore, hafter] at hsame
  exact absurd hsame (by decide)

end EdLog

end EdNio.Buffer
