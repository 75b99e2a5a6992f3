import Mathlib

/-!
# Fencing

A resource is worked on by one holder at a time. Each time it is granted, its epoch
grows by one and the holder receives a ticket; a holder that lost the resource may still
try to use its ticket. `Standing` is what is stored about one resource, `Move` what one
step may do to it, and `Fenced` relates it to the grants made so far: whoever holds the
resource was granted it last, and no ticket but that grant's is outstanding.
-/

namespace Nexora.Std.Fencing

universe u v

/-- Whether a resource may be granted, is held, or is done with for good. -/
inductive Phase (Holder : Type u) where
  | free
  | held (holder : Holder)
  | closed

/-- What is stored about a resource. -/
structure Standing (Holder : Type u) (Ticket : Type v) where
  epoch : Nat
  phase : Phase Holder
  outstanding : Ticket → Holder → Prop

/-- A grant of the resource. -/
structure Grant (Holder : Type u) (Ticket : Type v) where
  epoch : Nat
  ticket : Ticket
  holder : Holder

variable {Holder : Type u} {Ticket : Type v}

/-- No ticket is outstanding that was not before. -/
def Standing.NoNewer (before after : Standing Holder Ticket) : Prop :=
  ∀ ticket holder, after.outstanding ticket holder → before.outstanding ticket holder

/-- What one step may do to a resource, with the grant it makes. -/
inductive Move (before after : Standing Holder Ticket) : Option (Grant Holder Ticket) → Prop where
  | keep (epoch : after.epoch = before.epoch) (phase : after.phase = before.phase)
      (tickets : before.NoNewer after) : Move before after none
  | close (epoch : after.epoch = before.epoch) (phase : after.phase = .closed) :
      Move before after none
  /-- The holder gives the resource back and withdraws the ticket it worked under. -/
  | release (holder : Holder) (ticket : Ticket) (epoch : after.epoch = before.epoch)
      (held : before.phase = .held holder) (used : before.outstanding ticket holder)
      (phase : after.phase = .free) (tickets : before.NoNewer after)
      (withdrawn : ∀ other, ¬ after.outstanding ticket other) : Move before after none
  /-- The resource is taken back and every ticket withdrawn. -/
  | recover (epoch : after.epoch = before.epoch) (phase : after.phase = .free)
      (withdrawn : ∀ ticket holder, ¬ after.outstanding ticket holder) : Move before after none
  /-- The resource is granted under a new ticket. A ticket that is outstanding beside it was
  outstanding while the resource was free. -/
  | grant (granted : Grant Holder Ticket) (later : before.epoch < granted.epoch)
      (epoch : after.epoch = granted.epoch)
      (phase : after.phase = .held granted.holder)
      (tickets : ∀ ticket holder, after.outstanding ticket holder →
        (ticket = granted.ticket ∧ holder = granted.holder) ∨
          (before.phase = .free ∧ before.outstanding ticket holder)) : Move before after (some granted)

/-- How a resource stands after a sequence of grants. -/
structure Fenced (standing : Standing Holder Ticket) (grants : List (Grant Holder Ticket)) :
    Prop where
  held : ∀ holder, standing.phase = .held holder → ∃ granted, grants.getLast? = some granted ∧
    granted.holder = holder ∧ granted.epoch = standing.epoch ∧
    ∀ ticket other, standing.outstanding ticket other → ticket = granted.ticket ∧ other = holder
  free : standing.phase = .free → ∀ ticket holder, ¬ standing.outstanding ticket holder
  bounded : ∀ granted ∈ grants, granted.epoch ≤ standing.epoch
  increasing : grants.Pairwise fun earlier later => earlier.epoch < later.epoch

namespace Fenced

variable {standing next : Standing Holder Ticket} {grants : List (Grant Holder Ticket)}
  {made : Option (Grant Holder Ticket)}

/-- A resource that was never granted and has no outstanding ticket. -/
theorem fresh (free : standing.phase = .free)
    (none : ∀ ticket holder, ¬ standing.outstanding ticket holder) : Fenced standing [] where
  held holder held := by
    rw [free] at held
    cases held
  free _ := none
  bounded _ member := by cases member
  increasing := .nil

/-- A move keeps the relation with the grants, once its own is added to them. -/
theorem move (fenced : Fenced standing grants) (step : Move standing next made) :
    Fenced next (grants ++ made.toList) := by
  cases step with
  | keep epoch phase tickets =>
    rw [Option.toList_none, List.append_nil]
    refine ⟨fun holder held => ?_, fun free ticket holder outstanding => ?_, ?_,
      fenced.increasing⟩
    · obtain ⟨granted, last, same, at_, only⟩ := fenced.held holder (phase ▸ held)
      exact ⟨granted, last, same, at_.trans epoch.symm,
        fun ticket other outstanding => only ticket other (tickets ticket other outstanding)⟩
    · exact fenced.free (phase ▸ free) ticket holder (tickets ticket holder outstanding)
    · rw [epoch]
      exact fenced.bounded
  | close epoch phase =>
    rw [Option.toList_none, List.append_nil]
    refine ⟨fun holder held => ?_, fun free => ?_, ?_, fenced.increasing⟩
    · rw [phase] at held
      cases held
    · rw [phase] at free
      cases free
    · rw [epoch]
      exact fenced.bounded
  | release holder ticket epoch held used phase tickets withdrawn =>
    rw [Option.toList_none, List.append_nil]
    refine ⟨fun other held => ?_, fun _ other otherHolder outstanding => ?_, ?_,
      fenced.increasing⟩
    · rw [phase] at held
      cases held
    · -- Every outstanding ticket was the last grant's, which is the one withdrawn.
      obtain ⟨granted, _, _, _, only⟩ := fenced.held holder held
      have same := (only other otherHolder (tickets other otherHolder outstanding)).1.trans
        (only ticket holder used).1.symm
      exact withdrawn otherHolder (same ▸ outstanding)
    · rw [epoch]
      exact fenced.bounded
  | recover epoch phase withdrawn =>
    rw [Option.toList_none, List.append_nil]
    refine ⟨fun holder held => ?_, fun _ => withdrawn, ?_, fenced.increasing⟩
    · rw [phase] at held
      cases held
    · rw [epoch]
      exact fenced.bounded
  | grant granted later epoch phase tickets =>
    rw [Option.toList_some]
    refine ⟨fun holder held => ⟨granted, by simp, ?_, epoch.symm, ?_⟩, fun free => ?_, ?_, ?_⟩
    · rw [phase] at held
      exact Phase.held.inj held
    · rw [phase] at held
      intro ticket other outstanding
      rcases tickets ticket other outstanding with ⟨sameTicket, sameHolder⟩ | ⟨free, earlier⟩
      · exact ⟨sameTicket, sameHolder.trans (Phase.held.inj held)⟩
      · exact absurd earlier (fenced.free free ticket other)
    · rw [phase] at free
      cases free
    · intro other member
      rcases List.mem_append.mp member with earlier | last
      · have := fenced.bounded other earlier
        omega
      · rw [List.mem_singleton.mp last]
        omega
    · refine List.pairwise_append.mpr ⟨fenced.increasing, List.pairwise_singleton _ _, ?_⟩
      intro earlier member last lastMember
      rw [List.mem_singleton.mp lastMember]
      have := fenced.bounded earlier member
      omega

/-- A move that makes no grant keeps the relation with the same grants. -/
theorem move_none (fenced : Fenced standing grants) (step : Move standing next none) :
    Fenced next grants := by
  have moved := fenced.move step
  rwa [Option.toList_none, List.append_nil] at moved

/-- Whoever holds the resource and presents an outstanding ticket was granted it last. -/
theorem holder_latest (fenced : Fenced standing grants) {holder : Holder} {ticket : Ticket}
    (held : standing.phase = .held holder) (outstanding : standing.outstanding ticket holder) :
    grants.getLast? = some ⟨standing.epoch, ticket, holder⟩ := by
  obtain ⟨⟨epoch, grantedTicket, grantedHolder⟩, last, sameHolder, sameEpoch, only⟩ :=
    fenced.held holder held
  obtain ⟨sameTicket, _⟩ := only ticket holder outstanding
  dsimp only at sameHolder sameEpoch sameTicket
  rw [last, ← sameHolder, ← sameEpoch, ← sameTicket]

end Fenced

end Nexora.Std.Fencing
