import EmailVerifier.Prober.Ledger
import EmailVerifier.Prober.Probe

/-! The questions of a session, by the books.

Each rule is about one piece of `session` followed by the rest of the program, as the
rules of the protocol are; the state is the bystander's ledger.
-/

set_option autoImplicit false

namespace EmailVerifier.Prober
open Text Data Semantics

namespace Ledger

variable {l l' l'' : Ledger}

structure Calm (l l' : Ledger) : Prop where
  heard : l'.heard = l.heard
  run : l'.policyRun = l.policyRun
  grouped : l'.grouped = l.grouped
  mails : l'.mails = l.mails
  accepted : l'.accepted = l.accepted
  grown : l.mishaps <+: l'.mishaps

lemma Calm.rfl : Calm l l := ⟨Eq.refl _, Eq.refl _, Eq.refl _, Eq.refl _, Eq.refl _, List.prefix_rfl⟩

lemma Calm.trans (first : Calm l l') (second : Calm l' l'') : Calm l l'' :=
  ⟨second.heard.trans first.heard, second.run.trans first.run, second.grouped.trans first.grouped,
    second.mails.trans first.mails, second.accepted.trans first.accepted, first.grown.trans second.grown⟩

lemma suffers_grown (mishap : Mishap) (happened : Bool) : l.mishaps <+: (l.suffers mishap happened).mishaps := by
  cases happened with
  | true => exact List.prefix_append _ _
  | false => exact List.prefix_rfl

lemma Calm.suffers (calm : Calm l l') (mishap : Mishap) (happened : Bool) : Calm l (l'.suffers mishap happened) := by
  cases happened with
  | true => exact ⟨calm.heard, calm.run, calm.grouped, calm.mails, calm.accepted,
      calm.grown.trans (List.prefix_append _ _)⟩
  | false => exact calm

lemma Calm.write (calm : Calm l l') {command : Command} (other : isMailFrom command = false) :
    Calm l (l'.write command) := by
  refine ⟨calm.heard, calm.run, calm.grouped, ?_, ?_, calm.grown⟩
  · simp [Ledger.write, Dialogue.asks, other, calm.mails]
  · simp [Ledger.write, other, calm.accepted]

lemma Smooth.before (smooth : Smooth l') (grown : l.mishaps <+: l'.mishaps) : Smooth l :=
  ⟨fun member => smooth.granted (grown.subset member), fun member => smooth.unstopped (grown.subset member),
    fun member => smooth.whole (grown.subset member)⟩

lemma not_smooth_failed (l : Ledger) : ¬ Smooth (l.suffers .failed true) :=
  fun smooth => smooth.granted (List.mem_append_right _ (List.mem_singleton.mpr (Eq.refl _)))

lemma Smooth.unaccepted {noted : Ledger} {accepted : Bool} (smooth : (noted.suffers .split accepted).Smooth) :
    accepted = false := by
  cases accepted with
  | false => rfl
  | true => exact absurd (List.mem_append_right _ (List.mem_singleton.mpr rfl)) smooth.whole

end Ledger

open Ledger (Calm)

abbrev Books [Unicode] (o : Options) (stop : Int) : World calls Ledger := World.noting (Ledger.next o stop)

lemma unattempted_validIn {p : Progress} {left : List Str} {addr : Str} {r : Result} (none : Unanswered r)
    (valid : ValidIn (p.unattempted left r).results addr) : ValidIn p.out addr := by
  obtain ⟨s, found, accepted⟩ := valid
  rw [Progress.unattempted, Table.lookup_setAll] at found
  split at found
  · cases found
    exact absurd (.inl accepted) none.cls
  · exact ⟨s, found, accepted⟩

lemma decideCatchAll_answered {accepted answered : Nat} (some : 0 < answered) :
    (decideCatchAll accepted answered).catchAll.isSome = true := by
  unfold decideCatchAll
  rw [if_neg (Nat.ne_of_gt some)]
  split
  · rfl
  · split <;> rfl

lemma decideCatchAll_decided {accepted answered : Nat} (decided : (decideCatchAll accepted answered).decided = true) :
    (decideCatchAll accepted answered).catchAll.isSome = true := by
  rcases Nat.eq_zero_or_pos answered with rfl | some
  · cases decided
  · exact decideCatchAll_answered some

section
variable [Unicode] {o : Options} {req : Request} {stop : Int} {A B : Type} {l : Ledger} {conn : Conn}
  {post : B → Ledger → Prop} {addrs left : List Str} {p : Progress}

lemma Ledger.next_quiet {op : Op} {a : op.Answer} (quiet : Quiet op) : l.next o stop ⟨op, a⟩ = l := by
  cases op <;> first | rfl | cases quiet

lemma quiet_booked {q : Act A} {f : A → Act B} (quiet : q.Only Quiet)
    (rest : ∀ a, (f a).Follows (Books o stop) post l) : (q >>= f).Follows (Books o stop) post l :=
  .bind (quiet.follows (fun _ _ member => (Ledger.next_quiet member).symm) rest)

variable {h : Heard} {reply : Reply} {later : List Str} {command : Command} {f : Except Failure Unit → Act B}
  {r : Result} {p' : Progress} {domain : Str}

lemma step_booked {f : Except Failure Reply → Act B}
    (answered : ∀ reply, (f (.ok reply)).Follows (Books o stop) post ((l.write command).hear o stop reply))
    (silent : ∀ err, (f (.error err)).Follows (Books o stop) post ((l.write command).suffers .failed true)) :
    (step conn (some command) >>= f).Follows (Books o stop) post l := by
  refine .bind (.bind (.ask fun written => ⟨_, rfl, ?_⟩))
  cases written with
  | error err => exact silent err
  | ok _ =>
    refine .ask fun answer => ⟨_, rfl, ?_⟩
    cases answer with
    | error err => exact silent err
    | ok reply => exact answered reply

lemma banner_booked {f : Except Failure Reply → Act B}
    (answered : ∀ reply, (f (.ok reply)).Follows (Books o stop) post (l.hear o stop reply))
    (silent : ∀ err, (f (.error err)).Follows (Books o stop) post (l.suffers .failed true)) :
    (step conn none >>= f).Follows (Books o stop) post l := by
  refine .bind (.ask fun answer => ⟨_, rfl, ?_⟩)
  cases answer with
  | error err => exact silent err
  | ok reply => exact answered reply

section
variable (granted : (f (.ok ())).Follows (Books o stop) post l)
  (denied : ∀ err, (f (.error err)).Follows (Books o stop) post (l.suffers .failed true))
include granted denied

lemma acquire_booked : (acquire o req >>= f).Follows (Books o stop) post l := by
  refine .bind ?_
  unfold acquire
  split
  · refine .bind (.ask fun answer => ⟨_, rfl, ?_⟩)
    cases answer with
    | ok _ => exact quiet_booked (notify_only _ _) fun _ => granted
    | error err => exact denied err
  · exact granted

lemma pay_booked {asked : Nat} : (pay o req asked >>= f).Follows (Books o stop) post l := by
  unfold pay
  split
  · exact acquire_booked granted denied
  · exact granted

end

lemma writeLine_booked (other : isMailFrom command = false)
    (rest : ∀ a l', Calm l l' → (f a).Follows (Books o stop) post l') :
    (writeLine conn command >>= f).Follows (Books o stop) post l := by
  refine .bind (.ask fun written => ⟨_, rfl, ?_⟩)
  cases written with
  | error err => exact rest _ _ ((Calm.rfl.write other).suffers _ _)
  | ok _ => exact rest _ _ (Calm.rfl.write other)

lemma teardown_booked {f : Unit → Act B} (rest : ∀ l', Calm l l' → (f ()).Follows (Books o stop) post l') :
    (teardown conn >>= f).Follows (Books o stop) post l := by
  refine .bind (.bind (.ask fun _ => ⟨_, rfl, ?_⟩))
  refine writeLine_booked rfl fun _ l₁ first => ?_
  exact writeLine_booked rfl fun _ l₂ second => rest l₂ (first.trans second)

lemma regroupFrom_booked {reason : FallbackReason} {reply : Str} {f : Exit → Act B} (rest : ∀ l', Calm l l' →
      (f { results := p.out, verdicts := p.verdicts, rest := left }).Follows (Books o stop) post l') :
    (regroupFrom o req conn p left reason reply >>= f).Follows (Books o stop) post l :=
  .bind (quiet_booked (fallBack_only _ _ _ _) fun _ => teardown_booked rest)

variable {start l' : Ledger} {done more : List Heard} {exit : Exit} {addr : Str}

/-- Between two questions: the answers so far are on the books and in the table. -/
structure Booking (o : Options) (start l : Ledger) (done : List Heard) (p : Progress) : Prop where
  out : p.out = booked o done
  heard : l.heard = start.heard ++ done
  run : l.policyRun = p.policyRun
  taken : ∀ h ∈ done, h.limit = false

lemma Booking.moved (booking : Booking o start l done p) (calm : Calm l l') : Booking o start l' done p :=
  ⟨booking.out, calm.heard.trans booking.heard, calm.run.trans booking.run, booking.taken⟩

/-- What became of the addresses `left` ahead of a moment with `done` behind it: some
were answered, some given up, the rest handed back. One of those handed back may have
been asked in vain. -/
structure Accounted (o : Options) (start l : Ledger) (done more again : List Heard) (left lost : List Str)
    (exit : Exit) : Prop where
  same : left = more.map Heard.addr ++ (lost ++ exit.rest)
  apart : lost = [] ∨ exit.rest = []
  heard : l.heard = start.heard ++ (done ++ more ++ again)
  taken : ∀ h ∈ done ++ more, h.limit = false
  vain : ∀ h ∈ again, h.limit = true ∧ exit.rest.head? = some h.addr
  recorded : Recorded o (done ++ more) lost exit.results
  blamed : lost ≠ [] → l.mishaps ≠ []

def Tally (o : Options) (start l : Ledger) (done : List Heard) (left : List Str) (exit : Exit) : Prop :=
  ∃ more again lost, Accounted o start l done more again left lost exit

lemma Tally.giveUp (booking : Booking o start l done p) (none : Unanswered r)
    (blame : l.mishaps ≠ []) : Tally o start l done left (p.unattempted left r) := by
  refine ⟨[], [], left, (List.append_nil left).symm, .inr rfl, ?_, ?_, by simp, ?_, fun _ => blame⟩
  · simpa using booking.heard
  · simpa using booking.taken
  · rw [List.append_nil, Progress.unattempted, booking.out]
    exact .giveUp none

lemma Tally.handBack (again : List Heard) (out : p.out = booked o done)
    (heard : l.heard = start.heard ++ (done ++ again)) (taken : ∀ h ∈ done, h.limit = false)
    (vain : ∀ h ∈ again, h.limit = true ∧ left.head? = some h.addr) :
    Tally o start l done left { results := p.out, verdicts := p.verdicts, rest := left } := by
  refine ⟨[], again, [], rfl, .inl rfl, ?_, ?_, vain, ?_, fun some => absurd rfl some⟩
  · rw [heard, List.append_nil]
  · simpa using taken
  · rw [List.append_nil]
    dsimp only
    rw [out]
    exact .booked done

lemma Tally.after (more : List Heard) (tally : Tally o start l (done ++ more) left exit) :
    Tally o start l done (more.map Heard.addr ++ left) exit := by
  obtain ⟨later, again, lost, found⟩ := tally
  refine ⟨more ++ later, again, lost, ?_, found.apart, ?_, ?_, found.vain, ?_, found.blamed⟩
  · rw [found.same, List.map_append, List.append_assoc]
  · rw [found.heard, List.append_assoc done more later]
  · rw [← List.append_assoc]
    exact found.taken
  · rw [← List.append_assoc]
    exact found.recorded

lemma Tally.validIn (tally : Tally o start l done left exit) (behind : addr ∉ left)
    (valid : ValidIn exit.results addr) : ValidIn (booked o done) addr := by
  obtain ⟨more, again, lost, found⟩ := tally
  obtain ⟨r, booking, accepted⟩ := found.recorded.validIn valid
  rw [booked_other fun member => behind (found.same ▸ List.mem_append_left _ member)] at booking
  exact ⟨r, booking, accepted⟩

structure Took (o : Options) (l l' : Ledger) (p p' : Progress) (h : Heard) : Prop where
  grouped : l'.grouped = l.grouped
  mails : l'.mails = l.mails
  accepted : l'.accepted = (l.accepted || decide ((h.result o).cls = .valid))
  grown : l.mishaps <+: l'.mishaps
  verdicts : p'.verdicts = p.verdicts
  out : p'.out = p.out.insert h.addr (h.result o)

/-- The dialogue broke off. Where nothing but grouping can be blamed for it, nothing of
the domain had been accepted. -/
structure Broke (o : Options) (start l l' : Ledger) (done : List Heard) (addr : Str) (left : List Str) (p : Progress)
    (exit : Exit) : Prop where
  tally : Tally o start l' done (addr :: left) exit
  verdicts : exit.verdicts = p.verdicts
  grown : l.mishaps <+: l'.mishaps
  valid : ∀ other, ValidIn exit.results other → other = addr ∨ ValidIn p.out other
  barren : l'.Smooth → l.accepted = false ∧ ∀ addr, ValidIn exit.results addr → ValidIn p.out addr

lemma Broke.giveUp (booking : Booking o start l' done p) (none : Unanswered r)
    (grown : l.mishaps <+: l'.mishaps) (rough : ¬ l'.Smooth) (blame : l'.mishaps ≠ []) :
    Broke o start l l' done addr left p (p.unattempted (addr :: left) r) :=
  ⟨.giveUp booking none blame, rfl, grown, fun _ valid => .inr (unattempted_validIn none valid),
    fun smooth => absurd smooth rough⟩

lemma Broke.from {mid : Ledger} (broke : Broke o start mid l' done addr left p exit) (calm : Calm l mid) :
    Broke o start l l' done addr left p exit where
  tally := broke.tally
  verdicts := broke.verdicts
  valid := broke.valid
  grown := calm.grown.trans broke.grown
  barren smooth := ⟨calm.accepted ▸ (broke.barren smooth).1, (broke.barren smooth).2⟩

lemma Took.from {mid : Ledger} (took : Took o mid l' p p' h) (calm : Calm l mid) :
    Took o l l' p p' h where
  grouped := took.grouped.trans calm.grouped
  mails := took.mails.trans calm.mails
  accepted := calm.accepted ▸ took.accepted
  grown := calm.grown.trans took.grown
  verdicts := took.verdicts
  out := took.out

lemma Took.validIn {other : Str} (took : Took o l l' p p' h) (valid : ValidIn p'.out other) :
    other = h.addr ∨ ValidIn p.out other := by
  obtain ⟨r, found, accepted⟩ := valid
  rw [took.out, Table.lookup_insert_ite] at found
  split at found
  · rename_i same
    exact .inl same
  · exact .inr ⟨r, found, accepted⟩

lemma Heard.result_cls (direct : h.relay = false) : (h.result o).cls = o.classOf h.reply := by
  rw [Heard.result, direct]
  rfl

lemma Heard.result_relay (relay : h.relay = true) : (h.result o).cls = .policy := by
  rw [Heard.result, relay]
  rfl

section
variable (made : h = ⟨addr, reply, l.further⟩)
include made

lemma Ledger.answer_refused (refused : (h.relay || h.limit) = true) :
    l.answer o stop addr reply = ({ l with heard := l.heard ++ [h] } : Ledger).suffers .split l.accepted := by
  subst made
  simp only [Ledger.answer, if_pos refused]

lemma Ledger.answer_taken (taken : (h.relay || h.limit) = false) :
    l.answer o stop addr reply = (({ l with heard := l.heard ++ [h] } : Ledger).book o reply).suffers .stopped
      (0 < stop && stop ≤ (if o.classOf reply = .policy then l.policyRun + 1 else 0 : Nat)) := by
  subst made
  simp only [Ledger.answer, taken, Bool.false_eq_true, if_false, Ledger.book]

/-- A refusal of grouping is heard, and is a mishap where an address was accepted before. -/
lemma Ledger.Calm.refused (refused : (h.relay || h.limit) = true) (calm : Calm (l.answer o stop addr reply) l') :
    l'.heard = l.heard ++ [h] ∧ l.mishaps <+: l'.mishaps ∧ (l'.Smooth → l.accepted = false) := by
  rw [Ledger.answer_refused made refused] at calm
  refine ⟨?_, ?_, fun smooth => (smooth.before calm.grown).unaccepted⟩
  · rw [calm.heard]
    cases l.accepted <;> rfl
  · exact (Ledger.suffers_grown (l := { l with heard := l.heard ++ [h] }) _ _).trans calm.grown

variable (booking : Booking o start l done p)
include booking

lemma Broke.limit (refused : h.limit = true) (calm : Calm (l.answer o stop addr reply) l') :
    Broke o start l l' done addr later p { results := p.out, verdicts := p.verdicts, rest := addr :: later } := by
  obtain ⟨heard, grown, unaccepted⟩ := calm.refused made (by simp [refused])
  have named : h.addr = addr := by rw [made]
  refine ⟨.handBack [h] booking.out ?_ booking.taken ?_, rfl, grown, fun _ valid => .inr valid,
    fun smooth => ⟨unaccepted smooth, fun _ valid => valid⟩⟩
  · rw [heard, booking.heard, List.append_assoc]
  · exact List.forall_mem_singleton.mpr ⟨refused, by rw [named]; rfl⟩

lemma Broke.relay (refused : h.relay = true) (calm : Calm (l.answer o stop addr reply) l') :
    Broke o start l l' done addr later p
      { results := (p.book addr (h.result o)).out, verdicts := p.verdicts, rest := later } := by
  obtain ⟨heard, grown, unaccepted⟩ := calm.refused made (by simp [refused])
  have named : h.addr = addr := by rw [made]
  have unlimited : h.limit = false := by
    have both : (h.further && relayRefusal h.reply.code h.reply.text) = true := refused
    simp only [Bool.and_eq_true] at both
    simp [Heard.limit, both]
  have out : (p.book addr (h.result o)).out = booked o (done ++ [h]) := by
    rw [booked_snoc, ← booking.out, named]
    rfl
  have tally : Tally o start l' (done ++ [h]) later
      { results := (p.book addr (h.result o)).out, verdicts := (p.book addr (h.result o)).verdicts, rest := later } := by
    refine .handBack [] out ?_ ?_ (by simp)
    · rw [heard, booking.heard, List.append_nil, List.append_assoc]
    · exact forall_mem_snoc.mpr ⟨booking.taken, unlimited⟩
  have whole := tally.after [h]
  rw [List.map_singleton, named] at whole
  have still : ∀ other, ValidIn (p.book addr (h.result o)).out other → ValidIn p.out other := by
    rintro other ⟨r, found, accepted⟩
    change (p.out.insert addr (h.result o)).lookup other = some r at found
    rw [Table.lookup_insert_ite] at found
    split at found
    · cases found
      rw [Heard.result_relay refused] at accepted
      cases accepted
    · exact ⟨r, found, accepted⟩
  exact ⟨whole, rfl, grown, fun other valid => .inr (still other valid), fun smooth => ⟨unaccepted smooth, still⟩⟩

lemma Booking.take (stop : Int) (taken : (h.relay || h.limit) = false) :
    Booking o start (l.answer o stop addr reply) (done ++ [h]) (p.book addr (h.result o)) ∧
      Took o l (l.answer o stop addr reply) p (p.book addr (h.result o)) h := by
  have direct : h.relay = false := (Bool.or_eq_false_iff.mp taken).1
  have unlimited : h.limit = false := (Bool.or_eq_false_iff.mp taken).2
  have named : h.addr = addr := by rw [made]
  have cls : (h.result o).cls = o.classOf reply := by rw [Heard.result_cls direct, made]
  obtain ⟨happened, is⟩ : ∃ happened, l.answer o stop addr reply =
      (({ l with heard := l.heard ++ [h] } : Ledger).book o reply).suffers .stopped happened :=
    ⟨_, Ledger.answer_taken made taken⟩
  rw [is]
  constructor
  · refine ⟨?_, ?_, ?_, ?_⟩
    · rw [booked_snoc, ← booking.out, named]
      rfl
    · have heard : ((({ l with heard := l.heard ++ [h] } : Ledger).book o reply).suffers .stopped happened).heard =
          l.heard ++ [h] := by
        cases happened <;> rfl
      rw [heard, booking.heard, List.append_assoc]
    · have run : ((({ l with heard := l.heard ++ [h] } : Ledger).book o reply).suffers .stopped happened).policyRun =
          if o.classOf reply = .policy then l.policyRun + 1 else 0 := by
        cases happened <;> rfl
      rw [run, booking.run, Progress.book, cls]
    · exact forall_mem_snoc.mpr ⟨booking.taken, unlimited⟩
  · refine ⟨?_, ?_, ?_, ?_, rfl, ?_⟩
    · cases happened <;> rfl
    · cases happened <;> rfl
    · rw [cls]
      cases happened <;> rfl
    · exact Ledger.suffers_grown (l := ({ l with heard := l.heard ++ [h] } : Ledger).book o reply) _ _
    · rw [named]
      rfl

lemma Booking.stops (taken : (h.relay || h.limit) = false)
    (stops : 0 < stop ∧ stop ≤ (p.book addr (h.result o)).policyRun) :
    .stopped ∈ (l.answer o stop addr reply).mishaps := by
  have direct : h.relay = false := (Bool.or_eq_false_iff.mp taken).1
  have cls : (h.result o).cls = o.classOf reply := by rw [Heard.result_cls direct, made]
  simp only [Progress.book, cls, ← booking.run] at stops
  rw [Ledger.answer_taken made taken, decide_eq_true stops.1, decide_eq_true stops.2]
  exact List.mem_append_right _ (List.mem_singleton.mpr rfl)

end

lemma askOne_booked {further : Bool} {f : Except Exit Progress → Act B}
    (limit : stop = o.policyStopFor req) (booking : Booking o start l done p) (same : further = l.further)
    (took : ∀ l' p' h, h.addr = addr → Booking o start l' (done ++ [h]) p' → Took o l l' p p' h →
      (f (.ok p')).Follows (Books o stop) post l') (broke : ∀ l' exit, Broke o start l l' done addr later p exit →
      (f (.error exit)).Follows (Books o stop) post l') :
    (askOne o req conn further addr later p >>= f).Follows (Books o stop) post l := by
  have asking : Calm l (l.write (.rcpt addr)) := Calm.rfl.write rfl
  have asked : Booking o start (l.write (.rcpt addr)) done p := booking.moved asking
  refine .bind (pay_booked ?_ fun err => ?_)
  · refine step_booked (fun reply => ?_) fun err => ?_
    · let h : Heard := { addr := addr, reply := reply, further := further }
      have made : h = ⟨addr, reply, (l.write (.rcpt addr)).further⟩ := by
        simp only [h, same]
        rfl
      change Prog.Follows _ _ _ ((l.write (.rcpt addr)).answer o stop addr reply)
      dsimp only
      split
      · rename_i refused
        have refused : h.limit = true := refused
        refine regroupFrom_booked fun l' calm => broke l' _ ?_
        exact (Broke.limit made asked refused calm).from asking
      · rename_i unlimited
        have unlimited : h.limit = false := Bool.eq_false_iff.mpr unlimited
        refine quiet_booked (report_only _ _ _ _ _) fun _ => ?_
        split
        · rename_i refused
          have refused : h.relay = true := refused
          refine regroupFrom_booked fun l' calm => broke l' _ ?_
          exact (Broke.relay made asked refused calm).from asking
        · rename_i direct
          have direct : h.relay = false := Bool.eq_false_iff.mpr direct
          have taken : (h.relay || h.limit) = false := by rw [direct, unlimited, Bool.or_false]
          obtain ⟨booking', took'⟩ := asked.take made stop taken
          split
          · rename_i stops
            have noted := asked.stops made taken (limit ▸ stops)
            refine teardown_booked fun l' calm => broke l' _ ⟨?_, rfl, ?_, fun other valid => ?_, fun smooth => ?_⟩
            · refine Tally.after [h] (.giveUp (booking'.moved calm) (stoppedFor_unanswered _) ?_)
              exact List.ne_nil_of_mem (calm.grown.subset noted)
            · exact (took'.from asking).grown.trans calm.grown
            · exact took'.validIn (unattempted_validIn (stoppedFor_unanswered _) valid)
            · exact absurd (calm.grown.subset noted) smooth.unstopped
          · exact took _ _ h rfl booking' (took'.from asking)
    · refine broke _ _ (.giveUp (asked.moved (Calm.rfl.suffers _ _))
        (dropped_unanswered (classifyNetErr_not_verdict err)) (asking.suffers _ _).grown
        (Ledger.not_smooth_failed _) ?_)
      simp [Ledger.suffers]
  · refine broke _ _ (.giveUp (booking.moved (Calm.rfl.suffers _ _))
      (dropped_unanswered (budgetClass_not_verdict err)) (Ledger.suffers_grown _ _) (Ledger.not_smooth_failed _) ?_)
    simp [Ledger.suffers]

def Held (own : List Str) (l : Ledger) (p : Progress) : Prop := ∀ addr ∈ own, ValidIn p.out addr → l.accepted = true

lemma Held.took {own : List Str} (held : Held own l p) (took : Took o l l' p p' h) : Held own l' p' := by
  intro addr member valid
  obtain ⟨r, found, accepted⟩ := valid
  rw [took.out, Table.lookup_insert_ite] at found
  rw [took.accepted, Bool.or_eq_true, decide_eq_true_eq]
  split at found
  · cases found
    exact .inr accepted
  · exact .inl (held addr member ⟨r, found, accepted⟩)

structure SameRound (l l' : Ledger) (p p' : Progress) : Prop where
  grouped : l'.grouped = l.grouped
  mails : l'.mails = l.mails
  grown : l.mishaps <+: l'.mishaps
  verdicts : p'.verdicts = p.verdicts

/-- The dialogue broke off in a domain. Where nothing else can be blamed for it, none of
the domain's addresses was accepted. -/
structure Halted (o : Options) (start l l' : Ledger) (done : List Heard) (own left : List Str) (p : Progress)
    (exit : Exit) : Prop where
  tally : Tally o start l' done left exit
  verdicts : exit.verdicts = p.verdicts
  grown : l.mishaps <+: l'.mishaps
  valid : ∀ addr, ValidIn exit.results addr → addr ∈ own ∨ ValidIn p.out addr
  barren : l'.Smooth → ∀ addr ∈ own, ¬ ValidIn exit.results addr

lemma askAddrs_booked {further : Bool} {own : List Str} {f : Except Exit Progress → Act B}
    (limit : stop = o.policyStopFor req) (booking : Booking o start l done p) (same : further = l.further)
    (inside : ∀ addr ∈ addrs, addr ∈ own) (held : Held own l p)
    (passed : ∀ l' p' more, more.map Heard.addr = addrs → Booking o start l' (done ++ more) p' → Held own l' p' →
      SameRound l l' p p' → (f (.ok p')).Follows (Books o stop) post l')
    (halted : ∀ l' exit, Halted o start l l' done own (addrs ++ later) p exit →
      (f (.error exit)).Follows (Books o stop) post l') :
    (askAddrs o req conn further later addrs p >>= f).Follows (Books o stop) post l := by
  induction addrs generalizing l done p with
  | nil => exact passed l p [] rfl (by rwa [List.append_nil]) held ⟨rfl, rfl, List.prefix_rfl, rfl⟩
  | cons addr addrs ih =>
    refine .bind (askOne_booked limit booking same ?_ ?_)
    · intro mid p₁ h named booking₁ took
      have same₁ : further = mid.further := by rw [same, Dialogue.further, Dialogue.further, took.grouped, took.mails]
      have mine : h.addr ∈ own := named ▸ inside addr List.mem_cons_self
      refine Prog.Follows.of_bind (ih booking₁ same₁ (fun other member => inside other (List.mem_cons_of_mem addr member))
        (held.took took) ?_ ?_)
      · intro l' p' more asked booking' held' within
        refine passed l' p' (h :: more) (by rw [List.map_cons, named, asked]) ?_ held' ?_
        · rwa [List.append_assoc, List.singleton_append] at booking'
        · exact ⟨within.grouped.trans took.grouped, within.mails.trans took.mails, took.grown.trans within.grown,
            within.verdicts.trans took.verdicts⟩
      · intro l' exit broke
        have tally := broke.tally.after [h]
        rw [List.map_singleton, named] at tally
        refine halted l' exit ⟨tally, broke.verdicts.trans took.verdicts, took.grown.trans broke.grown,
          fun other valid => ?_, broke.barren⟩
        rcases broke.valid other valid with here | before
        · exact .inl here
        · rcases took.validIn before with rfl | earlier
          · exact .inl mine
          · exact .inr earlier
    · intro l' exit broke
      refine halted l' exit ⟨broke.tally, broke.verdicts, broke.grown, fun other valid => ?_,
        fun smooth other member valid => ?_⟩
      · rcases broke.valid other valid with rfl | before
        · exact .inl (inside _ List.mem_cons_self)
        · exact .inr before
      obtain ⟨none, still⟩ := broke.barren smooth
      rw [held other member (still other valid)] at none
      cases none

structure Turned (o : Options) (start l l' : Ledger) (done : List Heard) (left : List Str) (p : Progress)
    (exit : Exit) : Prop where
  tally : Tally o start l' done left exit
  verdicts : exit.verdicts = p.verdicts
  grown : l.mishaps <+: l'.mishaps
  valid : ∀ addr, ValidIn exit.results addr → ValidIn p.out addr

lemma Turned.giveUp (booking : Booking o start l' done p) (none : Unanswered r)
    (grown : l.mishaps <+: l'.mishaps) (blame : l'.mishaps ≠ []) :
    Turned o start l l' done left p (p.unattempted left r) :=
  ⟨.giveUp booking none blame, rfl, grown, fun _ valid => unattempted_validIn none valid⟩

lemma reopen_booked {f : Except Exit Unit → Act B} (booking : Booking o start l done p)
    (either : command = .rset ∨ isMailFrom command = true)
    (opened : ∀ l', Booking o start l' done p → Calm (l.write command) l' →
      (f (.ok ())).Follows (Books o stop) post l')
    (turned : ∀ l' exit, Turned o start l l' done left p exit → (f (.error exit)).Follows (Books o stop) post l') :
    (reopen o req conn p left command >>= f).Follows (Books o stop) post l := by
  have asked : Booking o start (l.write command) done p := ⟨booking.out, booking.heard, booking.run, booking.taken⟩
  refine .bind (step_booked (fun reply => ?_) fun err => ?_)
  · have heard : (l.write command).hear o stop reply =
        (l.write command).suffers .turnedAway ((l.write command).turnsAway o reply) := by
      rcases either with rfl | mail
      · rfl
      · cases command with
        | mailFrom sender => rfl
        | _ => cases mail
    rw [heard]
    have calm : Calm (l.write command) ((l.write command).suffers .turnedAway ((l.write command).turnsAway o reply)) :=
      Calm.rfl.suffers _ _
    dsimp only
    split
    · exact opened _ (asked.moved calm) calm
    · rename_i refused
      split
      · rename_i busy
        have turns : (l.write command).turnsAway o reply = true := by
          rw [beforeRCPT_isThrottle] at busy
          rcases either with rfl | mail
          · simpa [Ledger.turnsAway, Ledger.write, Dialogue.asks, refused, Options.classOf] using busy
          · cases command with
            | mailFrom sender =>
              simp only [Ledger.turnsAway, Ledger.write, Dialogue.asks, Options.classOf]
              simp [refused, or_assoc, busy]
            | _ => cases mail
        refine quiet_booked (observe_only _ _ _) fun _ => turned _ _ ?_
        refine .giveUp (asked.moved calm) (failure_unanswered (beforeRCPT_not_verdict o reply)) calm.grown ?_
        rw [turns]
        simp [Ledger.suffers]
      · refine regroupFrom_booked fun l' calm' => turned _ _ ⟨.handBack [] booking.out ?_ booking.taken (by simp), rfl, ?_, fun _ valid => valid⟩
        · rw [calm'.heard, calm.heard, List.append_nil]
          exact booking.heard
        · exact calm.grown.trans calm'.grown
  · refine turned _ _ (.giveUp (asked.moved (Calm.rfl.suffers _ _)) (dropped_unanswered (classifyNetErr_not_verdict err))
      (Ledger.suffers_grown (l := l.write command) _ _) ?_)
    simp [Ledger.suffers]

lemma nextTransaction_booked {f : Except Exit Unit → Act B} (booking : Booking o start l done p)
    (opened : ∀ l', Booking o start l' done p → l'.grouped = l.grouped → l'.mails = l.mails + 1 →
      l'.accepted = false → l.mishaps <+: l'.mishaps → (f (.ok ())).Follows (Books o stop) post l')
    (turned : ∀ l' exit, Turned o start l l' done left p exit → (f (.error exit)).Follows (Books o stop) post l') :
    (nextTransaction o req conn p left >>= f).Follows (Books o stop) post l := by
  refine .bind (reopen_booked booking (.inl rfl) (fun mid reset calm => ?_) turned)
  have calm : Calm l mid := (Calm.rfl.write rfl).trans calm
  refine .of_bind (reopen_booked reset (.inr rfl) (fun l' mailed calm' => ?_) fun l' exit end_ => ?_)
  · refine opened l' mailed (calm'.grouped.trans calm.grouped) ?_ ?_ (calm.grown.trans calm'.grown)
    · rw [calm'.mails, ← calm.mails]
      rfl
    · rw [calm'.accepted]
      exact Bool.and_false _
  · exact turned l' exit ⟨end_.tally, end_.verdicts, calm.grown.trans end_.grown, end_.valid⟩

lemma bogusAddress_booked {f : Except Failure Str → Act B} (drawn : ∀ addr, (f (.ok addr)).Follows (Books o stop) post l)
    (unnamed : ∀ err, domain = [] → (f (.error err)).Follows (Books o stop) post l)
    (undrawn : ∀ err, (f (.error err)).Follows (Books o stop) post (l.suffers .failed true)) :
    (bogusAddress domain >>= f).Follows (Books o stop) post l := by
  refine .bind ?_
  unfold bogusAddress
  split
  · rename_i empty
    exact unnamed _ empty
  · refine .bind (.ask fun answer => ⟨_, rfl, ?_⟩)
    cases answer with
    | ok nonce => exact drawn _
    | error err => exact undrawn _

lemma askBogus_booked {audit : Bool} {n accepted answered : Nat} {f : Nat × Nat → Act B}
    (rest : ∀ l' counts, Calm l l' → answered ≤ counts.2 →
      (l'.Smooth → domain ≠ [] → 0 < n → answered < counts.2) → (f counts).Follows (Books o stop) post l') :
    (askBogus o req conn domain audit n accepted answered >>= f).Follows (Books o stop) post l := by
  induction n generalizing l accepted answered with
  | zero => exact rest l _ .rfl (Nat.le_refl _) fun _ _ some => absurd some (Nat.lt_irrefl 0)
  | succ n ih =>
    have failed (mid : Ledger) (calm : Calm l mid) :
        (f (accepted, answered)).Follows (Books o stop) post (mid.suffers .failed true) :=
      rest _ _ (calm.suffers _ _) (Nat.le_refl _) fun smooth => absurd smooth (Ledger.not_smooth_failed _)
    refine .bind (bogusAddress_booked (fun bogus => ?_) (fun _ empty => ?_) fun _ => failed l .rfl)
    · refine acquire_booked ?_ fun _ => failed l .rfl
      have asking : Calm l (l.write (.bogus bogus)) := Calm.rfl.write rfl
      refine step_booked (fun reply => ?_) fun _ => failed _ asking
      change Prog.Follows _ _ _ (l.write (.bogus bogus))
      have again (accepted' : Nat) : (askBogus o req conn domain audit n accepted' (answered + 1)).Follows
          (Books o stop) (fun counts l' => (f counts).Follows (Books o stop) post l') (l.write (.bogus bogus)) :=
        .of_bind (ih fun l' counts calm more _ => rest l' counts (asking.trans calm) (by omega) fun _ _ _ => by omega)
      dsimp only
      split
      · exact again _
      · split
        · exact again _
        · exact rest _ _ asking (Nat.le_succ _) fun _ _ _ => Nat.lt_succ_self _
    · exact rest l _ .rfl (Nat.le_refl _) fun _ named => absurd empty named

lemma askCatchAll_booked {out : Results} {f : CatchAllVerdict → Act B}
    (rest : ∀ l' v, Calm l l' → (v.decided = true → v.catchAll.isSome = true) →
      (l'.Smooth → domain ≠ [] → (∃ addr ∈ addrs, ValidIn out addr) → v.catchAll.isSome = true) →
      (f v).Follows (Books o stop) post l') :
    (askCatchAll o req conn domain addrs out >>= f).Follows (Books o stop) post l := by
  refine .bind ?_
  unfold askCatchAll
  split
  · refine quiet_booked (auditDrawn_only o) fun audit => ?_
    refine askBogus_booked fun l' counts calm _ answers => ?_
    refine quiet_booked (countCatchAll_only _ _) fun _ => rest l' _ calm decideCatchAll_decided ?_
    intro smooth named _
    refine decideCatchAll_answered (answers smooth named ?_)
    have some : 0 < o.catchAllProbesOr := by
      unfold Options.catchAllProbesOr
      split <;> omega
    split <;> omega
  · rename_i none
    refine quiet_booked (countCatchAll_only _ _) fun _ => rest l _ .rfl (fun decided => by cases decided) ?_
    rintro - - ⟨addr, member, r, found, accepted⟩
    refine absurd (List.any_eq_true.mpr ⟨addr, member, ?_⟩) none
    simp [found, accepted]

end

end EmailVerifier.Prober
