import EdNio.Buffer.LogAtomic
import Mathlib.Data.List.Basic

/-!
# Strings of 64K and more

`print` counts a string with its NUL in 16 bits. Of a string whose length does not fit it
stores the first bytes only, without a NUL, under a length that counts just these.
-/

namespace EdNio.Buffer

namespace EdLog

/-- What `flush` and `dumpAll` put out, whatever the memory of the call holds. -/
def Reads (low : Bool) (log : EdLog) (lines : List (List UInt8)) : Prop :=
  ∀ slen junk,
    (∀ count, (log.flush low slen junk count).map Prod.fst =
      some (lines.take (if count ≤ 0 then lines.length else count.toNat))) ∧
    (log.dumpAll low slen junk).map Prod.fst = some lines

def printed : List (Leftover × LogOp) → List (List UInt8)
  | [] => []
  | (_, .print str) :: ops => str.1 :: printed ops
  | _ :: ops => printed ops

/-- The newest record is the whole of `str`, and the log can be read, now and later. -/
structure HoldsIntact (low : Bool) (log : EdLog) (str : List UInt8) : Prop where
  newest : ∃ front, log.mQue.contents =
    front ++ (u16Bytes low (UInt16.ofNat (str.length + 1)) ++ (str ++ [0]))
  reads : ∃ older, Reads low log (older ++ [str]) ∧
    ∀ later, ∃ outs log' lines, log.calls low later = some (outs, log') ∧
      lines <:+ older ++ [str] ++ printed later ∧ Reads low log' lines

/-- A `print` that returns 0 has stored the string. -/
def StoresIntact (low : Bool) (log : EdLog) (str : List UInt8) : Prop :=
  ∀ slen log', log.print low slen str = some (0, log') → HoldsIntact low log' str

variable {low : Bool} {B : Nat} {log : EdLog} {t t' : Strings}

lemma Keeps.reads (h : Keeps low B log t) (hB : B + 65535 ≤ 2 ^ 31) :
    Reads low log (t.held.map Subtype.val) := by
  intro slen junk
  constructor
  · intro count
    obtain ⟨strs, log', t', hf, ⟨hout, -⟩, -⟩ := h.flush hB slen junk count
    obtain rfl := LogOut.lines.inj hout
    rw [hf, Option.map_some, ← List.map_take, List.length_map]
    by_cases hc : count ≤ 0
    · rw [if_pos hc, if_pos hc]
    · rw [if_neg hc, if_neg hc, ← List.take_eq_take_min]
  · obtain ⟨strs, log', hd, ⟨hout, -⟩, -⟩ := h.dumpAll hB slen junk
    obtain rfl := LogOut.lines.inj hout
    rw [hd]
    rfl

/-- Only old strings leave the log. -/
lemma AnswersAll.held_suffix {ops : List (Leftover × LogOp)} {outs : List LogOut}
    (h : AnswersAll low B t ops outs t') :
    t'.held.map Subtype.val <:+ t.held.map Subtype.val ++ printed ops := by
  induction h with
  | nil s => exact ⟨[], (List.append_nil _).symm⟩
  | @cons s s' s'' left op out ops outs ha hs ih =>
    refine ih.trans ?_
    cases op with
    | print str =>
      rw [printed, List.append_cons]
      apply (List.suffix_append_self_iff).mpr
      rcases ha with ⟨-, ha⟩ | ⟨-, -, rfl⟩
      · obtain ⟨k, -, hheld, -⟩ := ha.fewest
        rw [hheld, List.map_append]
        apply (List.suffix_append_self_iff).mpr
        exact (List.drop_suffix k s.held).map Subtype.val
      · exact List.nil_suffix
    | flush count =>
      obtain ⟨-, hheld, -⟩ := ha
      have hprinted : printed ((left, .flush count) :: ops) = printed ops := rfl
      rw [hprinted, hheld]
      apply (List.suffix_append_self_iff).mpr
      exact (List.drop_suffix _ s.held).map Subtype.val
    | dumpAll =>
      obtain ⟨-, rfl⟩ := ha
      exact List.suffix_refl _

lemma Keeps.storesIntact (h : Keeps low B log t) (hB : B + 65535 ≤ 2 ^ 31) (str : LogString) :
    StoresIntact low log str.1 := by
  intro slen log' hp
  obtain ⟨ret, log₁, t₁, hp₁, ha, h₁⟩ := h.print hB slen str
  rw [hp, Option.some.injEq, Prod.mk.injEq] at hp₁
  obtain ⟨rfl, rfl⟩ := hp₁
  rcases ha with ⟨-, ha⟩ | ⟨hret, -⟩
  · obtain ⟨k, -, hheld, -⟩ := ha.fewest
    obtain ⟨s, hr, hs⟩ := h₁.ring
    have hlines : t₁.held.map Subtype.val = (t.held.drop k).map Subtype.val ++ [str.1] := by
      rw [hheld, List.map_append]
      rfl
    constructor
    · refine ⟨records low (t.held.drop k), ?_⟩
      rw [hr.contents, hs, hheld, records_append]
      simp [records, record]
    · refine ⟨(t.held.drop k).map Subtype.val, hlines ▸ h₁.reads hB, fun later => ?_⟩
      obtain ⟨outs, log₂, t₂, hcalls, hans, h₂⟩ := Keeps.calls hB later h₁
      exact ⟨outs, log₂, _, hcalls, hlines ▸ hans.held_suffix, h₂.reads hB⟩
  · cases hret

lemma length_frame_stored (low : Bool) (str : List UInt8) :
    (frame low (stored str)).length = 2 + (str.length + 1) % 2 ^ 16 := by
  rw [length_frame, length_stored, UInt16.toNat_ofNat', Nat.add_comm]

lemma stored_long {str : List UInt8} (hlong : 65535 ≤ str.length) :
    ∀ b ∈ (stored str).1, b ∈ str := by
  intro b hb
  have hle : (UInt16.ofNat (str.length + 1)).toNat ≤ str.length := by
    have := (UInt16.ofNat (str.length + 1)).toNat_lt
    omega
  have htake : (stored str).1 = str.take (UInt16.ofNat (str.length + 1)).toNat :=
    List.take_append_of_le_length hle
  exact List.mem_of_mem_take (htake ▸ hb)

lemma frame_long_ne (low : Bool) {str : List UInt8} (hstr : 0 ∉ str) (hlong : 65535 ≤ str.length)
    (old front : List UInt8) : old ++ frame low (stored str) ≠ front ++ (str ++ [0]) := by
  intro h
  have hlast := congrArg List.getLast? h
  rw [← List.append_assoc front, List.getLast?_concat] at hlast
  by_cases hnil : (stored str).1 = []
  · have hzero : frame low (stored str) = [0] ++ [0] := by
      rw [frame, hnil]
      cases low <;> rfl
    rw [hzero, ← List.append_assoc, ← List.append_assoc] at h
    have hshort := congrArg List.getLast? (List.append_cancel_right h)
    have hne : str ≠ [] := by
      rintro rfl
      exact absurd hlong (by decide)
    rw [List.getLast?_concat, List.getLast?_append_of_ne_nil _ hne] at hshort
    exact hstr (List.mem_of_getLast? hshort.symm)
  · rw [frame, ← List.append_assoc, List.getLast?_append_of_ne_nil _ hnil] at hlast
    exact hstr (stored_long hlong 0 (List.mem_of_getLast? hlast))

lemma Keeps.storesIntact_long_iff (h : Keeps low B log t) (hB : B + 65535 ≤ 2 ^ 31)
    {str : List UInt8} (hstr : 0 ∉ str) (hlong : 65535 ≤ str.length) :
    StoresIntact low log str ↔ B < 2 + (str.length + 1) % 2 ^ 16 := by
  obtain ⟨s, hr, hs⟩ := h.ring
  rw [records_eq_frames] at hs
  have hfst : (evict low B (frame low (stored str)).length
      (t.held.map (fun str => stored str.1))).1 = true ↔ (frame low (stored str)).length ≤ B := by
    rw [evict_fst_iff]
    refine and_iff_left fun front c back hcs hc => absurd hc (stored_ne_nil t.held c ?_)
    rw [hcs]
    exact List.mem_append_right _ List.mem_cons_self
  rw [← length_frame_stored low, ← Nat.not_le, ← hfst]
  constructor
  · intro hi he
    obtain ⟨log', s', hp, hr', hs'⟩ := print_eq hB (fun _ => 0) str hr hs rfl
    rw [if_pos he] at hp hs'
    obtain ⟨front, hfront⟩ := (hi _ _ hp).newest
    have hlast : frames low [stored str] = frame low (stored str) := List.flatMap_singleton _ _
    rw [hr'.contents, hs', frames_append, hlast, ← List.append_assoc front] at hfront
    exact frame_long_ne low hstr hlong _ _ hfront
  · intro he slen log' hp
    obtain ⟨log₁, s₁, hp₁, -⟩ := print_eq hB slen str hr hs rfl
    rw [hp, if_neg he, Option.some.injEq, Prod.mk.injEq] at hp₁
    exact absurd hp₁.1 (by decide)

/-- After every run in which all strings have at most 65534 bytes, a string of any length is
stored intact or refused if and only if it has at most 65534 bytes too, or what is left of
its length does not fit into the buffer. -/
theorem print_stores_intact_iff (hB : 1 ≤ B) (hB' : B + 65535 ≤ 2 ^ 31) (low : Bool)
    (junk : Nat → UInt8) (ops : List (Leftover × LogOp)) :
    ∃ outs log, (EdLog.new B junk).calls low ops = some (outs, log) ∧
      ∀ str : List UInt8, 0 ∉ str →
        (StoresIntact low log str ↔ str.length ≤ 65534 ∨ B < 2 + (str.length + 1) % 2 ^ 16) := by
  obtain ⟨outs, log, t, hcalls, -, hk⟩ := Keeps.calls hB' ops (Keeps.new low junk hB)
  refine ⟨outs, log, hcalls, fun str hstr => ?_⟩
  by_cases hlen : str.length ≤ 65534
  · exact ⟨fun _ => .inl hlen, fun _ => hk.storesIntact hB' ⟨str, hstr, hlen⟩⟩
  · rw [hk.storesIntact_long_iff hB' hstr (by omega)]
    exact ⟨.inr, fun hc => hc.resolve_left hlen⟩

theorem print_stores_intact_iff_short : ∃ outs log,
    (EdLog.new 8 (fun _ => 0)).calls true [(⟨fun _ => 0, fun _ => 0⟩, .print ⟨[65], by decide⟩)] =
      some (outs, log) ∧
    ∀ str : List UInt8, 0 ∉ str →
      (StoresIntact true log str ↔ str.length ≤ 65534 ∨ 8 < 2 + (str.length + 1) % 2 ^ 16) :=
  print_stores_intact_iff (B := 8) (by decide) (by decide) true (fun _ => 0)
    [(⟨fun _ => 0, fun _ => 0⟩, .print ⟨[65], by decide⟩)]

/-- Of 65535 bytes nothing is stored but a length of 0. -/
theorem not_print_stores_intact : ¬ ∀ (B : Nat) (str : List UInt8), 1 ≤ B → 0 ∉ str →
    StoresIntact true (EdLog.new B (fun _ => 0)) str := by
  intro h
  have hstr : (0 : UInt8) ∉ List.replicate 65535 65 := by
    intro hmem
    exact absurd (List.eq_of_mem_replicate hmem) (by decide)
  have hlen : (List.replicate 65535 (65 : UInt8)).length = 65535 := List.length_replicate
  have hi := h 100 _ (by decide) hstr
  rw [(Keeps.new true (fun _ => 0) (by decide)).storesIntact_long_iff (by decide) hstr
    (by rw [hlen]), hlen] at hi
  exact absurd hi (by decide)

end EdLog

end EdNio.Buffer
