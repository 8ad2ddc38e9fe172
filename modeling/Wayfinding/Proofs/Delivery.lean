import Wayfinding.Bus

namespace Wayfinding.Bus

variable {bus : Bus} {subscription : Subscription}

theorem publish_eq (bus : Bus) (envelope : Envelope) (hs : 0 < bus.subscribers) :
    (bus.publish envelope).2 = { bus with
      dropped := bus.dropped + ((bus.kept ++ [envelope]).length - bus.capacity)
      kept := (bus.kept ++ [envelope]).drop ((bus.kept ++ [envelope]).length - bus.capacity) } := by
  have hn : bus.subscribers ≠ 0 := Nat.ne_of_gt hs
  rw [publish, if_neg hn]

theorem isOpen_publish (bus : Bus) (envelope : Envelope) :
    (bus.publish envelope).2.isOpen = bus.isOpen := by
  unfold publish
  split <;> rfl

theorem subscribers_publish (bus : Bus) (envelope : Envelope) :
    (bus.publish envelope).2.subscribers = bus.subscribers := by
  unfold publish
  split <;> rfl

theorem dropped_publish (bus : Bus) (envelope : Envelope) : bus.dropped ≤ (bus.publish envelope).2.dropped := by
  unfold publish
  split
  · exact Nat.le_refl _
  · exact Nat.le_add_right _ _

theorem published_publish (bus : Bus) (envelope : Envelope) (hs : 0 < bus.subscribers) :
    (bus.publish envelope).2.published = bus.published + 1 := by
  rw [publish_eq bus envelope hs]
  simp only [published, List.length_drop, List.length_append, List.length_cons, List.length_nil]
  omega

theorem waiting_publish {envelope : Envelope} (hs : 0 < bus.subscribers)
    (hn : subscription.next ≤ bus.published)
    (hk : (bus.publish envelope).2.dropped ≤ subscription.next) :
    (bus.publish envelope).2.waiting subscription = bus.waiting subscription ++ [envelope] := by
  rw [publish_eq bus envelope hs] at hk ⊢
  have hl : subscription.next - bus.dropped ≤ bus.kept.length := by
    rw [published] at hn
    omega
  simp only at hk
  simp only [waiting, List.drop_drop]
  rw [← List.drop_append_of_le_length hl]
  congr 1
  omega

/-- The first envelope that waits is received, if the filter accepts it, and the others go on waiting. -/
theorem receive_cons {envelope : Envelope} {rest : List Envelope}
    (hk : bus.dropped ≤ subscription.next) (hw : bus.waiting subscription = envelope :: rest)
    (ha : subscription.filter.accepts envelope = true) :
    bus.receive subscription =
        (.envelope envelope, { subscription with next := bus.published - rest.length }) ∧
      bus.waiting { subscription with next := bus.published - rest.length } = rest := by
  have hb : ¬subscription.next < bus.dropped := Nat.not_lt.mpr hk
  constructor
  · rw [receive, if_neg hb, hw, List.dropWhile_cons]
    simp [ha]
  · have hl : (bus.waiting subscription).length = rest.length + 1 := by rw [hw, List.length_cons]
    have hr : rest = bus.kept.drop (subscription.next - bus.dropped + 1) := by
      rw [waiting] at hw
      rw [← List.drop_drop, hw]
      rfl
    rw [waiting, List.length_drop] at hl
    rw [hr, waiting, List.length_drop, published]
    congr 1
    simp only
    omega

theorem receive_nil (ho : bus.isOpen = true) (hk : bus.dropped ≤ subscription.next)
    (hw : bus.waiting subscription = []) :
    bus.receive subscription = (.nothing, { subscription with next := bus.published }) ∧
      bus.waiting { subscription with next := bus.published } = [] := by
  have hb : ¬subscription.next < bus.dropped := Nat.not_lt.mpr hk
  constructor
  · rw [receive, if_neg hb, hw]
    simp [ho]
  · simp [waiting, published]

end Wayfinding.Bus
