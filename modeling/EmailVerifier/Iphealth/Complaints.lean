import EmailVerifier.Data.Instant

/-! When complaints about our mail pause the sending: `ObserveComplaint`, `Complaints` and
`SendingPaused` of `internal/iphealth/iphealth.go`. Times are nanoseconds. -/

set_option autoImplicit false

namespace EmailVerifier.Iphealth

structure Tolerance where
  complaintWindow : Int := 0
  complaintThreshold : Int := 0

def Tolerance.window (o : Tolerance) : Int :=
  if o.complaintWindow ≤ 0 then 24 * 60 * 60 * 10 ^ 9 else o.complaintWindow

/-- The complaints of the window; the others are dropped. -/
def Complaints (window now : Int) (complaints : List Int) : List Int :=
  complaints.filter fun at_ => now - window < at_

/-- The numbers of the reason if the sending is paused, and the complaints that are kept. -/
def SendingPaused (o : Tolerance) (now : Int) (complaints : List Int) : Option (Nat × Int) × List Int :=
  if o.complaintThreshold ≤ 0 then (none, complaints)
  else
    let kept := Complaints o.window now complaints
    (if o.complaintThreshold ≤ kept.length then some (kept.length, o.window) else none, kept)

/-- The complaints that are kept, and all there ever were. -/
structure Inbox where
  clock : Int
  complaints : List Int := []
  all : List Int := []

/-- Somebody complains, or `SendingPaused` is asked, some time after the last call. -/
def Inbox.next (o : Tolerance) (s : Inbox) (call : Nat × Bool) : Inbox :=
  let now := s.clock + call.1
  if call.2 then { clock := now, complaints := s.complaints ++ [now], all := s.all ++ [now] }
  else { s with clock := now, complaints := (SendingPaused o now s.complaints).2 }

def Inbox.Complete (o : Tolerance) (s : Inbox) : Prop :=
  ∀ now, s.clock ≤ now → Complaints o.window now s.complaints = Complaints o.window now s.all

-- What is dropped is in no later window.
lemma Inbox.Complete.next {o : Tolerance} {s : Inbox} (complete : s.Complete o) (call : Nat × Bool) :
    (s.next o call).Complete o := by
  intro now later
  have earlier : s.clock + call.1 ≤ now := by
    unfold Inbox.next at later
    split at later <;> exact later
  have same := complete now (by omega)
  unfold Inbox.next
  split
  · simp only [Complaints, List.filter_append] at same ⊢
    rw [same]
  · unfold SendingPaused
    split
    · exact same
    · rw [← same]
      simp only [Complaints, List.filter_filter]
      refine List.filter_congr fun at_ _ => ?_
      simp only [Bool.and_eq_left_iff_imp, decide_eq_true_eq]
      omega

end EmailVerifier.Iphealth
