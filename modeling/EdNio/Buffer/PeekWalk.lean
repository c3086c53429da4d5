import EdNio.Buffer.RingQue

/-!
# Walking the queue

`peek` begins a walk through the queue and `peekNext` continues it. Bytes may be put while
the walk goes on: it ends where the queue ended when it began, and takes nothing away.
-/

namespace EdNio.Buffer

/-- A call between a `peek` and the end of its walk. -/
inductive WalkStep
  | put (buf : List UInt8)
  | peekNext (buf : Bool) (size : Nat)

namespace WalkStep

def op : WalkStep → Op
  | .put buf => .put buf
  | .peekNext buf size => .peekNext buf size

/-- How far the walk is asked to go. -/
def size : WalkStep → Nat
  | .put _ => 0
  | .peekNext _ size => size

end WalkStep

/-- The bytes asked for in a walk. -/
def walkSize (walk : List WalkStep) : Nat :=
  (walk.map WalkStep.size).sum

/-- The calls without the walk. -/
def putsOf : List WalkStep → List Op
  | [] => []
  | .put buf :: walk => .put buf :: putsOf walk
  | .peekNext _ _ :: walk => putsOf walk

/-- The answers of the walk. -/
def nextOuts : List WalkStep → List Out → List Out
  | .put _ :: walk, _ :: outs => nextOuts walk outs
  | .peekNext _ _ :: walk, out :: outs => out :: nextOuts walk outs
  | _, _ => []

/-- The consecutive pieces of `xs` that a walk asks for, and whether it has a buffer for them. -/
def segments (xs : List UInt8) : List WalkStep → List (Bool × List UInt8)
  | [] => []
  | .put _ :: walk => segments xs walk
  | .peekNext buf size :: walk => (buf, xs.take size) :: segments (xs.drop size) walk

def answer (seg : Bool × List UInt8) : Out :=
  (seg.2.length, if seg.1 then seg.2 else [])

/-- The answers that do not depend on a walk. -/
def stableOuts : List Op → List Out → List Out
  | .peekNext _ _ :: ops, _ :: outs => stableOuts ops outs
  | _ :: ops, out :: outs => out :: stableOuts ops outs
  | _, _ => []

/-- All later calls but `peekNext` answer on `q` and on `q'` alike. -/
def SameLater (q q' : EdRingQue) : Prop :=
  ∀ ops, ∃ outs t outs' t', q.calls ops = some (outs, t) ∧ q'.calls ops = some (outs', t') ∧
    stableOuts ops outs = stableOuts ops outs'

/-- What a `peek` of `n₀` bytes and the walk after it do. -/
structure WalksThrough (q : EdRingQue) (b₀ : Bool) (n₀ : Nat) (walk : List WalkStep)
    (q₀ : EdRingQue) (outs : List Out) (q' : EdRingQue) : Prop where
  first : q.peek b₀ n₀ = some (answer (b₀, q.contents.take n₀), q₀)
  calls : q₀.calls (walk.map WalkStep.op) = some (outs, q')
  next : nextOuts walk outs = (segments (q.contents.drop n₀) walk).map answer
  exhausted : q.contents.length ≤ n₀ + walkSize walk →
    ∀ (b : Bool) (n : Nat), ∃ q'', q'.peekNext b n = some ((0, []), q'')
  later : ∃ outs' q'', q.calls (putsOf walk) = some (outs', q'') ∧ SameLater q' q''

lemma flatMap_segments (xs : List UInt8) (walk : List WalkStep) :
    (segments xs walk).flatMap Prod.snd = xs.take (walkSize walk) := by
  induction walk generalizing xs with
  | nil => rfl
  | cons step walk ih =>
    cases step with
    | put buf =>
      rw [segments, ih]
      simp [walkSize, WalkStep.size]
    | peekNext buf size =>
      have hsize : walkSize (.peekNext buf size :: walk) = size + walkSize walk := by
        simp [walkSize, WalkStep.size]
      rw [segments, List.flatMap_cons, ih, hsize, List.take_add]

namespace EdRingQue

variable {cap : Nat} {q q' : EdRingQue} {s s' : BoundedFifo UInt8 cap}

lemma items_spec (h : s.items = s'.items) (op : Op) :
    (spec s op).2.items = (spec s' op).2.items := by
  cases op with
  | put buf => simp only [spec, BoundedFifo.items_put, BoundedFifo.free, h]
  | get buf size => simp only [spec, BoundedFifo.items_get, h]
  | peek | peekNext | getDataSize | getFreeSize => exact h

lemma spec_out_congr (h : s.items = s'.items) {op : Op} (hop : ∀ b n, op ≠ .peekNext b n) :
    (spec s op).1 = (spec s' op).1 ∧ ∃ o, (spec s op).1 = some o := by
  cases op with
  | put buf => exact ⟨by simp only [spec, BoundedFifo.free, h], _, rfl⟩
  | get buf size => exact ⟨by simp only [spec, h], _, rfl⟩
  | peek buf size => exact ⟨by simp only [spec, h], _, rfl⟩
  | peekNext buf size => exact absurd rfl (hop buf size)
  | getDataSize => exact ⟨by simp only [spec, h], _, rfl⟩
  | getFreeSize => exact ⟨by simp only [spec, BoundedFifo.free, h], _, rfl⟩

lemma stableOuts_cons {op : Op} (hop : ∀ b n, op ≠ .peekNext b n) (ops : List Op) (out : Out)
    (outs : List Out) : stableOuts (op :: ops) (out :: outs) = out :: stableOuts ops outs := by
  cases op with
  | peekNext buf size => exact absurd rfl (hop buf size)
  | put | get | peek | getDataSize | getFreeSize => rfl

lemma calls_cons {op : Op} {ops : List Op} {out : Out} {outs : List Out} {t u : EdRingQue}
    (h : q.call op = some (out, t)) (h' : t.calls ops = some (outs, u)) :
    q.calls (op :: ops) = some (out :: outs, u) := by
  rw [calls, h, Option.bind_some]
  dsimp only
  rw [h']
  rfl

/-- Two queues with the same items differ in nothing but their walks. -/
lemma Represents.sameLater (hcap : cap ≤ 2 ^ 30) (h : q.Represents s) (h' : q'.Represents s')
    (he : s.items = s'.items) : SameLater q q' := by
  intro ops
  induction ops generalizing q q' s s' with
  | nil => exact ⟨[], q, [], q', rfl, rfl, rfl⟩
  | cons op ops ih =>
    obtain ⟨out, q₁, hcall, h₁, hout⟩ := h.call hcap op
    obtain ⟨out', q₁', hcall', h₁', hout'⟩ := h'.call hcap op
    obtain ⟨outs, t, outs', t', hcalls, hcalls', hsame⟩ := ih h₁ h₁' (items_spec he op)
    refine ⟨out :: outs, t, out' :: outs', t', calls_cons hcall hcalls,
      calls_cons hcall' hcalls', ?_⟩
    by_cases hop : ∃ b n, op = .peekNext b n
    · obtain ⟨b, n, rfl⟩ := hop
      exact hsame
    · have hop' : ∀ b n, op ≠ .peekNext b n := fun b n hbn => hop ⟨b, n, hbn⟩
      obtain ⟨heq, o, ho⟩ := spec_out_congr he hop'
      rw [stableOuts_cons hop', stableOuts_cons hop', hsame, hout o ho, hout' o (heq ▸ ho)]

lemma items_specs_walk (he : s.items = s'.items) (walk : List WalkStep) :
    (specs s (walk.map WalkStep.op)).2.items = (specs s' (putsOf walk)).2.items := by
  induction walk generalizing s s' with
  | nil => exact he
  | cons step walk ih =>
    cases step with
    | put buf => exact ih (items_spec he (.put buf))
    | peekNext buf size => exact ih he

/-- A walk over what is left to peek passes from one piece to the next. -/
lemma Represents.walk (hcap : cap ≤ 2 ^ 30) (h : q.Represents s) {xs : List UInt8}
    (hxs : s.unpeeked = some xs) (walk : List WalkStep) :
    ∃ outs q', q.calls (walk.map WalkStep.op) = some (outs, q') ∧
      q'.Represents (specs s (walk.map WalkStep.op)).2 ∧
      nextOuts walk outs = (segments xs walk).map answer ∧
      (specs s (walk.map WalkStep.op)).2.unpeeked = some (xs.drop (walkSize walk)) := by
  induction walk generalizing q s xs with
  | nil => exact ⟨[], q, rfl, h, rfl, hxs⟩
  | cons step walk ih =>
    obtain ⟨out, q₁, hcall, h₁, hout⟩ := h.call hcap step.op
    cases step with
    | put buf =>
      obtain ⟨outs, q', hcalls, h', hnext, hrest⟩ := ih h₁ (BoundedFifo.unpeeked_put hxs buf)
      refine ⟨out :: outs, q', calls_cons hcall hcalls, h', hnext, ?_⟩
      rw [show walkSize (.put buf :: walk) = walkSize walk by simp [walkSize, WalkStep.size]]
      exact hrest
    | peekNext buf size =>
      obtain ⟨outs, q', hcalls, h', hnext, hrest⟩ :=
        ih h₁ (BoundedFifo.unpeeked_peekNext hxs size)
      have hanswer : out = answer (buf, xs.take size) := by
        apply hout
        simp only [WalkStep.op, spec, BoundedFifo.next_of_unpeeked hxs, Option.map_some]
        rfl
      refine ⟨out :: outs, q', calls_cons hcall hcalls, h', ?_, ?_⟩
      · rw [nextOuts, segments, List.map_cons, hnext, hanswer]
      · rw [show walkSize (.peekNext buf size :: walk) = size + walkSize walk by
          simp [walkSize, WalkStep.size], ← List.drop_drop]
        exact hrest

lemma Represents.peekNext_nil (hcap : cap ≤ 2 ^ 30) (h : q.Represents s)
    (hxs : s.unpeeked = some []) (buf : Bool) (size : Nat) :
    ∃ q', q.peekNext buf size = some ((0, []), q') := by
  obtain ⟨out, q', hq, -, hout⟩ := h.peekNext (Fits.of_le hcap size) buf
  have hzero := hout _ (BoundedFifo.next_of_unpeeked hxs size)
  rw [List.take_nil] at hzero
  refine ⟨q', ?_⟩
  rw [hq, hzero]
  cases buf <;> rfl

lemma Represents.walksThrough (hcap : cap ≤ 2 ^ 30) (h : q.Represents s) (b₀ : Bool) (n₀ : Nat)
    (walk : List WalkStep) : ∃ q₀ outs q', WalksThrough q b₀ n₀ walk q₀ outs q' := by
  obtain ⟨q₀, hpeek, h₀⟩ := h.peek (Fits.of_le hcap n₀) b₀
  obtain ⟨outs, q', hcalls, h', hnext, hrest⟩ :=
    h₀.walk hcap (BoundedFifo.unpeeked_peek n₀) walk
  obtain ⟨outs', q'', hputs, h'', -⟩ := Represents.calls hcap (putsOf walk) h
  have hcontents := h.contents
  refine ⟨q₀, outs, q', ?_, hcalls, ?_, ?_, outs', q'', hputs, ?_⟩
  · rw [hpeek, answer, hcontents, List.length_take]
  · rw [hnext, hcontents]
  · intro hlen b n
    rw [hcontents] at hlen
    have hnil : (s.items.drop n₀).drop (walkSize walk) = [] := by
      rw [List.drop_drop]
      exact List.drop_of_length_le hlen
    rw [hnil] at hrest
    exact h'.peekNext_nil hcap hrest b n
  · exact h'.sameLater hcap h'' (items_specs_walk (BoundedFifo.items_peek n₀) walk)

/-- In every reachable queue a `peek` and its walk return the queue in consecutive pieces,
whatever is put meanwhile, up to where it ended at the `peek`, and later calls answer as if
the bytes had only been put. -/
theorem peek_walks_queue {B : Nat} (hB : 1 ≤ B) (hB' : B ≤ 2 ^ 30) (junk : Nat → UInt8)
    (before : List Op) (b₀ : Bool) (n₀ : Nat) (walk : List WalkStep) :
    ∃ done q q₀ outs q', (EdRingQue.new B junk).calls before = some (done, q) ∧
      WalksThrough q b₀ n₀ walk q₀ outs q' ∧
      q.contents.take n₀ ++ (segments (q.contents.drop n₀) walk).flatMap Prod.snd =
        q.contents.take (n₀ + walkSize walk) := by
  obtain ⟨done, q, hcalls, hrep, -⟩ :=
    Represents.calls hB' before ⟨0, 0, 0, Holds.new junk hB⟩
  obtain ⟨q₀, outs, q', hwalk⟩ := hrep.walksThrough hB' b₀ n₀ walk
  refine ⟨done, q, q₀, outs, q', hcalls, hwalk, ?_⟩
  rw [flatMap_segments, List.take_add]

/-- The walk passes the end of the buffer, and bytes are put into the cells behind it. -/
theorem peek_walks_queue_wrapped : ∃ done q q₀ outs q',
    (EdRingQue.new 4 (fun _ => 0)).calls [.put [1, 2, 3], .get true 2, .put [4, 5]] =
      some (done, q) ∧
    WalksThrough q true 1 [.peekNext true 1, .put [6], .peekNext true 5] q₀ outs q' ∧
    q.contents.take 1 ++
        (segments (q.contents.drop 1) [.peekNext true 1, .put [6], .peekNext true 5]).flatMap
          Prod.snd =
      q.contents.take 7 :=
  peek_walks_queue (B := 4) (by decide) (by decide) (fun _ => 0)
    [.put [1, 2, 3], .get true 2, .put [4, 5]] true 1
    [.peekNext true 1, .put [6], .peekNext true 5]

end EdRingQue

end EdNio.Buffer
