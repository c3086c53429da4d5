import EdNio.Event.TaskProc

/-!
# Events that stay

What the operations on `EdEvent` objects leave of the events there are, in particular in the
middle of a batch.
-/

namespace EdNio.Event

/-- The events stay what they are, except that they may be deregistered. -/
def Stays (r r' : Registry) : Prop :=
  ∀ a p, r.heap a = some p →
    ∃ q, r'.heap a = some q ∧ q.user = p.user ∧ (q.isReg = true → p.isReg = true)

namespace Stays

variable {L : Layout} {r r' r'' : Registry} {a : Addr} {l : EvtList} {s t : State} {o : ObjId}

lemma refl (r : Registry) : Stays r r := fun _ p hp => ⟨p, hp, rfl, id⟩

lemma of_heap (h : r'.heap = r.heap) : Stays r r' := by
  intro a p hp
  exact ⟨p, by rw [h]; exact hp, rfl, id⟩

lemma trans (h : Stays r r') (h' : Stays r' r'') : Stays r r'' := by
  intro a p hp
  obtain ⟨q, hq, hu, hr⟩ := h a p hp
  obtain ⟨w, hw, hu', hr'⟩ := h' a q hq
  exact ⟨w, hw, hu'.trans hu, fun hreg => hr (hr' hreg)⟩

lemma write {f : Edevt → Edevt} (hu : ∀ p, (f p).user = p.user)
    (hr : ∀ p, (f p).isReg = true → p.isReg = true) : Stays r (r.write a f) := by
  intro b p hp
  by_cases hba : b = a
  · subst hba
    exact ⟨f p, by simp [Registry.write, hp], hu p, hr p⟩
  · exact ⟨p, by simpa [Registry.write, hba] using hp, rfl, id⟩

lemma push_back (h : r.push_back L l a = some r') : Stays r r' := by
  obtain ⟨e, -, rfl⟩ := Option.map_eq_some_iff.mp h
  split
  · exact refl r
  · exact write (fun _ => rfl) (fun _ => id)

lemma remove (h : r.remove L l a = some r') : Stays r r' := by
  obtain ⟨e, -, rfl⟩ := Option.map_eq_some_iff.mp h
  split
  · exact refl r
  · exact write (fun _ => rfl) (fun _ => id)

lemma deregEdEvent (h : r.deregEdEvent L a = some r') : Stays r r' := by
  obtain ⟨e, -, h⟩ := Option.bind_eq_some_iff.mp h
  obtain ⟨r₁, hrem, hpush⟩ := Option.bind_eq_some_iff.mp h
  refine trans ?_ ((remove hrem).trans (push_back hpush))
  apply write
  · exact fun _ => rfl
  · intro p hp
    cases hp

lemma changeEdEvent (h : r.changeEdEvent a = some r') : Stays r r' := by
  obtain ⟨e, -, rfl⟩ := Option.map_eq_some_iff.mp h
  split
  · exact of_heap rfl
  · exact refl r

/-- A new event lies at a free address. -/
lemma regEdEvent {fd : Int} {user : User} {added : Bool} {pevt : Option Addr}
    (ha : r.heap a = none) (h : r.regEdEvent L a fd user added = some (pevt, r')) :
    Stays r r' := by
  cases added with
  | false =>
    rw [Registry.regEdEvent_refused ha] at h
    cases h
    exact of_heap rfl
  | true =>
    rw [Registry.regEdEvent_added] at h
    cases h
    intro b p hp
    have hba : b ≠ a := by
      rintro rfl
      simp [ha] at hp
    exact ⟨p, update_some_iff.mpr (.inr ⟨hba, hp⟩), rfl, id⟩

lemma registerEvent {added : Bool} (ha : s.reg.heap a = none)
    (h : s.registerEvent L o a added = some t) : Stays s.reg t.reg := by
  unfold State.registerEvent at h
  simp only at h
  split at h
  · cases h
    exact refl _
  split at h
  · obtain ⟨⟨pevt, r⟩, hr, rfl⟩ := Option.map_eq_some_iff.mp h
    exact regEdEvent ha hr
  · cases h
    exact refl _

lemma deregisterEvent (h : s.deregisterEvent L o = some t) : Stays s.reg t.reg := by
  unfold State.deregisterEvent at h
  simp only at h
  split at h
  · cases h
    exact refl _
  split at h
  · obtain ⟨r, hr, rfl⟩ := Option.map_eq_some_iff.mp h
    exact deregEdEvent hr
  · cases h
    exact refl _

lemma changeEvent {added : Bool} (ha : s.reg.heap a = none)
    (h : s.changeEvent L o a added = some t) : Stays s.reg t.reg := by
  unfold State.changeEvent at h
  split at h
  · obtain ⟨r, hr, rfl⟩ := Option.map_eq_some_iff.mp h
    exact changeEdEvent hr
  · exact registerEvent ha h

lemma close (h : s.close L o = some t) : Stays s.reg t.reg := by
  unfold State.close at h
  simp only at h
  split at h
  · obtain ⟨u, hu, rfl⟩ := Option.map_eq_some_iff.mp h
    exact (deregisterEvent hu).trans (of_heap rfl)
  · cases h
    exact refl _

lemma destroy (h : s.destroy L o = some t) : Stays s.reg t.reg := by
  unfold State.destroy at h
  simp only at h
  obtain ⟨u, hu, rfl⟩ := Option.map_eq_some_iff.mp h
  split at hu
  · have hk := deregisterEvent hu
    exact hk
  · cases hu
    exact refl _

lemma delete (h : s.delete L o = some t) : Stays s.reg t.reg := by
  obtain ⟨u, hu, ht⟩ := Option.bind_eq_some_iff.mp h
  exact (close hu).trans (destroy ht)

lemma setUsec {fd : Int} {added : Bool} (h : s.setUsec L o fd a added = some t) :
    Stays s.reg t.reg := by
  unfold State.setUsec at h
  split at h
  · obtain ⟨hc, h⟩ := Option.ite_none_right_eq_some.mp h
    exact registerEvent (s := s.setFd o fd) hc.1 h
  · cases h
    exact refl _

lemma op {act : Action} (h : s.op L act = some t) : Stays s.reg t.reg := by
  cases act with
  | setFd o fd =>
    simp only [State.op, Option.ite_none_right_eq_some, Option.some.injEq] at h
    exact h.2 ▸ refl _
  | registerEvent o b added =>
    simp only [State.op, Option.ite_none_right_eq_some] at h
    exact registerEvent h.1.2.1 h.2
  | changeEvent o b added =>
    simp only [State.op, Option.ite_none_right_eq_some] at h
    exact changeEvent h.1.2.1 h.2
  | deregisterEvent o => exact deregisterEvent h
  | close o => exact close h
  | destroy o => exact destroy h
  | sysClose fd =>
    cases h
    exact of_heap rfl
  | _ => cases h

end Stays

end EdNio.Event
