import EmailVerifier.Relay.Deliver
import EmailVerifier.Semantics.Protocol

/-! The course of a call.

`Course` and `Intake` are the flowcharts of `DeliverNext` and of `Accept`: the points
between two operations, and which operation with which answer leads from one to the next.
The programs keep to them whatever they are answered. What a protocol asks of the relay is
then asked of the flowcharts, one arrow at a time.
-/

set_option autoImplicit false

namespace EmailVerifier.Relay
open Text Semantics

-- Why a body is deleted.
inductive Why where
  | delivered
  | listed
  -- The list is stale or cannot be read.
  | refused

/-- Where a call of `DeliverNext` stands between two operations. -/
inductive Point where
  | start
  | timed (time : Int)
  | promoting (due : List Str)
  -- Off the retry set, not on the ready list yet.
  | moving (id : Str) (due : List Str)
  | popped (id : Str)
  -- In hand; the list was found fresh, or not looked at yet.
  | taken (item : Item) (fresh : Bool)
  | undialled (item : Item)
  | tried (item : Item) (mxHost : Str) (out : Outcome)
  -- To be written back with one attempt more.
  | failed (item : Item)
  | stored (item : Item)
  -- To be deleted.
  | settled (item : Item) (why : Why)
  | over

-- Where a message is in hand and its fate is open or decided.
def Point.inHand : Point → Bool
  | .taken _ _ | .failed _ | .settled _ _ => true
  | _ => false

/-- What no point depends on. -/
def Op.aside : Op → Bool
  | .store c =>
    match c with
    | .llen _ | .zcard => true
    | _ => false
  | .enforcing | .sent _ | .queueDepth _ _ _ => true
  | _ => false

section
variable [Library]

inductive Course (o : Options) : Point → Event calls → Point → Prop where
  | aside {op a p} : op.aside = true → p.inHand = true → Course o p ⟨op, a⟩ p
  | unlisted {why} : Course o .start ⟨.burned, (false, why)⟩ .start
  | listed {why} : Course o .start ⟨.burned, (true, why)⟩ .over
  | unpaused {why} : Course o .start ⟨.sendingPaused, (false, why)⟩ .start
  | paused {why} : Course o .start ⟨.sendingPaused, (true, why)⟩ .over
  | clock {t} : Course o .start ⟨.now, t⟩ (.timed t)
  | unread {t err} : Course o (.timed t) ⟨.store (.zrangeByScore (unix t)), .error err⟩ .over
  | due {t ids} : Course o (.timed t) ⟨.store (.zrangeByScore (unix t)), .ok ids⟩ (.promoting ids)
  | unremoved {id due err} : Course o (.promoting (id :: due)) ⟨.store (.zrem id), .error err⟩ .over
  | gone {id due} : Course o (.promoting (id :: due)) ⟨.store (.zrem id), .ok (0 : Int)⟩ (.promoting due)
  | removed {id due} {n : Int} : n ≠ 0 →
      Course o (.promoting (id :: due)) ⟨.store (.zrem id), .ok n⟩ (.moving id due)
  | unpushed {id due err} : Course o (.moving id due) ⟨.store (.lpush .ready id), .error err⟩ .over
  | pushed {id due} : Course o (.moving id due) ⟨.store (.lpush .ready id), .ok ()⟩ (.promoting due)
  | unpopped {err} : Course o (.promoting []) ⟨.store .rpop, .error err⟩ .over
  | empty : Course o (.promoting []) ⟨.store .rpop, .ok none⟩ .over
  | nameless : Course o (.promoting []) ⟨.store .rpop, .ok (some [])⟩ .over
  | popped {id} : id ≠ [] → Course o (.promoting []) ⟨.store .rpop, .ok (some id)⟩ (.popped id)
  | unfetched {id err} : Course o (.popped id) ⟨.store (.get id), .error err⟩ .over
  | bodiless {id} : Course o (.popped id) ⟨.store (.get id), .ok none⟩ .over
  | garbled {id blob err} : Library.unmarshal blob = .error err →
      Course o (.popped id) ⟨.store (.get id), .ok (some blob)⟩ .over
  | fetched {id blob item} : Library.unmarshal blob = .ok item →
      Course o (.popped id) ⟨.store (.get id), .ok (some blob)⟩ (.taken item false)
  | stale {item} : Course o (.taken item false) ⟨.stale, true⟩ (.settled item .refused)
  | fresh {item} : Course o (.taken item false) ⟨.stale, false⟩ (.taken item true)
  | unreadable {item err} :
      Course o (.taken item true) ⟨.suppressed item.rcptTo, .error err⟩ (.settled item .refused)
  | suppressed {item why} :
      Course o (.taken item true) ⟨.suppressed item.rcptTo, .ok (true, why)⟩ (.settled item .listed)
  | allowed {item why} : Course o (.taken item true) ⟨.suppressed item.rcptTo, .ok (false, why)⟩ (.taken item true)
  | unmailed {item f domain err} : Course o (.taken item f) ⟨.mx domain, .error err⟩ (.failed item)
  | hostless {item f domain} : Course o (.taken item f) ⟨.mx domain, .ok []⟩ (.failed item)
  | hosted {item f domain host more} : Course o (.taken item f) ⟨.mx domain, .ok (host :: more)⟩ (.taken item f)
  | unpaid {item f host domain err} : Course o (.taken item f) ⟨.acquire host domain, .error err⟩ (.failed item)
  | paid {item f host domain} : Course o (.taken item f) ⟨.acquire host domain, .ok ()⟩ (.taken item f)
  | unresolved {item f host err} : Course o (.taken item f) ⟨.resolve host, .error err⟩ (.failed item)
  | addressless {item f host} : Course o (.taken item f) ⟨.resolve host, .ok []⟩ (.failed item)
  | resolved {item f host addr more} : Course o (.taken item f) ⟨.resolve host, .ok (addr :: more)⟩ (.taken item f)
  | undialled {item f network addr err} :
      Course o (.taken item f) ⟨.dialContext network addr, .error err⟩ (.undialled item)
  | dialled {item f network addr conn} :
      Course o (.taken item f) ⟨.dialContext network addr, .ok conn⟩ (.taken item f)
  | slowed {item host} : Course o (.undialled item) ⟨.observe host true, ()⟩ (.failed item)
  | sent {item f conn opt out} : Course o (.taken item f) ⟨.send conn opt, out⟩ (.tried item opt.mxHost out)
  | delivered {item host out} : out.delivered = true →
      Course o (.tried item host out) ⟨.observe host false, ()⟩ (.settled item .delivered)
  | undelivered {item host out} : out.delivered = false →
      Course o (.tried item host out) ⟨.observe host (!out.permanent), ()⟩ (.failed item)
  | unkept {item blob back err} : Library.unmarshal blob = .ok back → back.id = item.id →
      back.attempts = item.attempts + 1 → Course o (.failed item) ⟨.store (.set item.id blob), .error err⟩ .over
  | kept {item blob back} : Library.unmarshal blob = .ok back → back.id = item.id →
      back.attempts = item.attempts + 1 → Course o (.failed item) ⟨.store (.set item.id blob), .ok ()⟩ (.stored item)
  | buried {item a} : o.queue.maxAttempts ≤ (item.attempts + 1 : Nat) →
      Course o (.stored item) ⟨.store (.lpush .dead item.id), a⟩ .over
  | later {item t} : Course o (.stored item) ⟨.now, t⟩ (.stored item)
  | scheduled {item due a} : ¬ o.queue.maxAttempts ≤ (item.attempts + 1 : Nat) →
      Course o (.stored item) ⟨.store (.zadd due item.id), a⟩ .over
  | deleted {item why a} : Course o (.settled item why) ⟨.store (.del item.id), a⟩ .over

section
variable {o : Options} {A : Type} {p : Point}

lemma record_course {outcome : String} {next : Unit → Act A} {post : A → Point → Prop} (held : p.inHand = true)
    (rest : (next ()).Follows (Course o) post p) : (o.record outcome >>= next).Follows (Course o) post p := by
  unfold Options.record
  split
  · exact fun _ => ⟨p, .aside rfl held, rest⟩
  · exact rest

variable {item : Item}

lemma Done_course {why : Why} : (o.queue.Done item.id).Follows (Course o) (fun _ p => p = .over) (.settled item why) := by
  intro answer
  refine ⟨.over, .deleted, ?_⟩
  cases answer <;> rfl

lemma storeTried_course {reason : Str} {rest : Act (Except Err Unit)}
    (decoded : ∃ blob, Library.unmarshal blob = .ok item)
    (stored : rest.Follows (Course o) (fun _ p => p = .over) (.stored item)) :
    (storeItem (item.tried reason) rest).Follows (Course o) (fun _ p => p = .over) (.failed item) := by
  obtain ⟨old, decoded⟩ := decoded
  obtain ⟨blob, back, encoded, comesBack, same⟩ := Library.recoded old item decoded (item.attempts + 1) reason
  change Library.marshal (item.tried reason) = .ok blob at encoded
  unfold storeItem
  rw [encoded]
  apply Prog.Follows.bind
  intro answer
  cases answer with
  | error err => exact ⟨_, .unkept comesBack (by rw [same]) (by rw [same]), rfl⟩
  | ok _ => exact ⟨_, .kept comesBack (by rw [same]) (by rw [same]), stored⟩

lemma Retry_course {reason : Str} (decoded : ∃ blob, Library.unmarshal blob = .ok item) :
    (o.queue.Retry item o.retryBase reason).Follows (Course o) (fun _ p => p = .over) (.failed item) := by
  unfold Queue.Retry
  split
  · rename_i enough
    refine storeTried_course decoded fun answer => ⟨.over, .buried enough, ?_⟩
    cases answer <;> rfl
  · rename_i few
    refine storeTried_course decoded fun time => ⟨_, .later, fun answer => ⟨.over, .scheduled few, ?_⟩⟩
    cases answer <;> rfl

/-- A message in hand whose recipient was looked up. -/
def Looked (item : Item) : Except Err Unit → Point → Prop
  | .ok _, p => ∃ f, p = .taken item f
  | .error _, p => ∃ why, p = .settled item why

lemma suppressionAllows_course :
    (o.suppressionAllows item.rcptTo).Follows (Course o) (Looked item) (.taken item false) := by
  unfold Options.suppressionAllows
  split
  · exact ⟨false, rfl⟩
  intro enforces
  refine ⟨_, .aside rfl rfl, ?_⟩
  cases enforces with
  | false => exact ⟨false, rfl⟩
  | true =>
    intro old
    cases old with
    | true => exact ⟨_, .stale, .refused, rfl⟩
    | false =>
      refine ⟨_, .fresh, fun answer => ?_⟩
      match answer with
      | .error err => exact ⟨_, .unreadable, .refused, rfl⟩
      | .ok (true, reason) => exact ⟨_, .suppressed, .listed, rfl⟩
      | .ok (false, reason) => exact ⟨_, .allowed, true, rfl⟩

lemma conclude_course {mxHost : Str} {out : Outcome} (decoded : ∃ blob, Library.unmarshal blob = .ok item) :
    (o.conclude item mxHost out).Follows (Course o) (fun _ p => p = .over) (.tried item mxHost out) := by
  unfold Options.conclude
  split
  · rename_i delivered
    exact fun _ => ⟨_, .delivered delivered, record_course rfl Done_course⟩
  rename_i deferred
  have undelivered : Course o (.tried item mxHost out) ⟨.observe mxHost (!out.permanent), ()⟩ (.failed item) :=
    .undelivered (Bool.eq_false_iff.mpr deferred)
  split
  · rename_i permanent
    rw [permanent] at undelivered
    exact fun _ => ⟨_, undelivered, record_course rfl (Retry_course decoded)⟩
  · rename_i temporary
    rw [Bool.eq_false_iff.mpr temporary] at undelivered
    exact fun _ => ⟨_, undelivered, record_course rfl (Retry_course decoded)⟩

lemma deliver_course [Unicode] (decoded : ∃ blob, Library.unmarshal blob = .ok item) :
    (o.deliver item).Follows (Course o) (fun _ p => p = .over) (.taken item false) := by
  have retried (outcome : String) (reason : Str) : (do
      o.record outcome
      o.queue.Retry item o.retryBase reason : Act _).Follows (Course o) (fun _ p => p = .over) (.failed item) :=
    record_course rfl (Retry_course decoded)
  apply suppressionAllows_course.andThen
  intro result p looked
  cases result with
  | error err =>
    obtain ⟨why, rfl⟩ := looked
    exact record_course rfl Done_course
  | ok _ =>
    obtain ⟨f, rfl⟩ := looked
    -- The way out: every exit but the last gives the message back to the queue.
    intro hosts
    match hosts with
    | .error err => exact ⟨_, .unmailed, retried _ _⟩
    | .ok [] => exact ⟨_, .hostless, retried _ _⟩
    | .ok (mxHost :: _) =>
      refine ⟨_, .hosted, fun budget => ?_⟩
      match budget with
      | .error err => exact ⟨_, .unpaid, retried _ _⟩
      | .ok () =>
        refine ⟨_, .paid, fun addrs => ?_⟩
        match addrs with
        | .error err => exact ⟨_, .unresolved, retried _ _⟩
        | .ok [] => exact ⟨_, .addressless, retried _ _⟩
        | .ok (addr :: _) =>
          refine ⟨_, .resolved, fun dialled => ?_⟩
          match dialled with
          | .error err => exact ⟨_, .undialled, fun _ => ⟨_, .slowed, retried _ _⟩⟩
          | .ok conn => exact ⟨_, .dialled, fun out => ⟨_, .sent, conclude_course decoded⟩⟩

lemma promoteAll_course (ids : List Str) : (promoteAll ids).Follows (Course o)
    (fun result p => p = if result.isOk then .promoting [] else .over) (.promoting ids) := by
  induction ids with
  | nil => rfl
  | cons id more ih =>
    intro answer
    cases answer with
    | error err => exact ⟨_, .unremoved, rfl⟩
    | ok removed =>
      change ∃ p, _ ∧ Prog.Follows _ _ (if (show Int from removed) = 0 then _ else _ : Act _) p
      split
      · rename_i none
        rw [show removed = (0 : Int) from none]
        exact ⟨_, .gone, ih⟩
      · rename_i some
        refine ⟨_, .removed some, fun answer => ?_⟩
        cases answer with
        | error err => exact ⟨_, .unpushed, rfl⟩
        | ok _ => exact ⟨_, .pushed, ih⟩

/-- Where the next message is looked for. -/
def Handed : Except Err (Option Item) → Point → Prop
  | .ok (some item), p => p = .taken item false ∧ ∃ blob, Library.unmarshal blob = .ok item
  | _, p => p = .over

lemma fetch_course {id : Str} : (fetch id).Follows (Course o) Handed (.popped id) := by
  intro answer
  match answer with
  | .error err => exact ⟨_, .unfetched, rfl⟩
  | .ok none => exact ⟨_, .bodiless, rfl⟩
  | .ok (some blob) =>
    dsimp only [Prog.bind]
    cases decoded : Library.unmarshal blob with
    | error err => exact ⟨_, .garbled decoded, rfl⟩
    | ok item => exact ⟨_, .fetched decoded, rfl, blob, decoded⟩

lemma Next_course {q : Queue} : q.Next.Follows (Course o) Handed .start := by
  have promoted : q.promote.Follows (Course o)
      (fun result p => p = if result.isOk then .promoting [] else .over) .start := by
    refine fun time => ⟨_, .clock, fun answer => ?_⟩
    cases answer with
    | error err => exact ⟨_, .unread, rfl⟩
    | ok ids => exact ⟨_, .due, promoteAll_course ids⟩
  apply promoted.andThen
  rintro result p rfl
  cases result with
  | error err => rfl
  | ok _ =>
    change Prog.Follows _ _ _ (Point.promoting [])
    intro answer
    match answer with
    | .error err => exact ⟨_, .unpopped, rfl⟩
    | .ok none => exact ⟨_, .empty, rfl⟩
    | .ok (some id) =>
      change ∃ p, _ ∧ Prog.Follows _ _ (if id = [] then _ else fetch id : Act _) p
      split
      · rename_i nameless
        rw [nameless]
        exact ⟨_, .nameless, rfl⟩
      · rename_i named
        exact ⟨_, .popped named, fetch_course⟩

lemma healthy_course :
    o.healthy.Follows (Course o) (fun result p => p = if result.isOk then .start else .over) .start := by
  unfold Options.healthy
  split
  · rfl
  rintro ⟨listed, reason⟩
  cases listed with
  | true => exact ⟨_, .listed, rfl⟩
  | false =>
    refine ⟨_, .unlisted, ?_⟩
    rintro ⟨paused, reason⟩
    cases paused with
    | true => exact ⟨_, .paused, rfl⟩
    | false => exact ⟨_, .unpaused, rfl⟩

lemma DeliverNext_course [Unicode] : o.DeliverNext.Follows (Course o) (fun _ p => p = .over) .start := by
  apply healthy_course.andThen
  rintro fit p rfl
  cases fit with
  | error err => rfl
  | ok _ =>
    apply Next_course.andThen
    intro result p handed
    match result with
    | .error _ => exact handed
    | .ok none => exact handed
    | .ok (some item) =>
      obtain ⟨rfl, decoded⟩ := handed
      have delivered : (do return (true, ← o.deliver item) : Act (Bool × Except Err Unit)).Follows (Course o)
          (fun _ p => p = .over) (.taken item false) := (deliver_course decoded).andThen fun _ _ ended => ended
      change Prog.Follows _ _ (if o.metrics then _ else _ : Act _) _
      split
      · refine fun _ => ⟨_, .aside rfl rfl, fun _ => ⟨_, .aside rfl rfl, fun _ => ⟨_, .aside rfl rfl, ?_⟩⟩⟩
        exact fun _ => ⟨_, .aside rfl rfl, delivered⟩
      · exact delivered

end

/-- Where a call of `Accept` stands. -/
inductive Desk where
  | blank
  | drawn (id : Str)
  | entering (id : Str)
  | entered (id : Str)
  | over

-- What `Accept` asks between drawing an id and storing the message.
def Op.inquiry : Op → Bool
  | .enforcing | .stale | .now | .sign _ _ | .randRead _ => true
  | _ => false

/-- A body that is stored for a message, and the item it decodes to. -/
structure Entry (m : Message) (id blob : Str) (item back : Item) : Prop where
  encoded : Library.marshal item = .ok blob
  decoded : Library.unmarshal blob = .ok back
  rcptTo : item.rcptTo = addressOnly m.to_
  id : back.id = id
  attempts : back.attempts = 0

inductive Intake (m : Message) : Desk → Event calls → Desk → Prop where
  | undrawn {err} : Intake m .blank ⟨.randRead 18, .error err⟩ .over
  | drawn {bytes} : Intake m .blank ⟨.randRead 18, .ok bytes⟩ (.drawn (base64RawURL bytes.val))
  | inquires {id op a} : op.inquiry = true → Intake m (.drawn id) ⟨op, a⟩ (.drawn id)
  | looksUp {id a} : Intake m (.drawn id) ⟨.suppressed m.to_, a⟩ (.drawn id)
  | unstored {id blob item back err} : Entry m id blob item back →
      Intake m (.drawn id) ⟨.store (.set id blob), .error err⟩ .over
  | stored {id blob item back} : Entry m id blob item back → id ≠ [] →
      Intake m (.drawn id) ⟨.store (.set id blob), .ok ()⟩ (.entering id)
  | unqueued {id err} : Intake m (.entering id) ⟨.store (.lpush .ready id), .error err⟩ .over
  | queued {id} : Intake m (.entering id) ⟨.store (.lpush .ready id), .ok ()⟩ (.entered id)
variable {o : Options} {m : Message} {id : Str}

lemma Enqueue_intake {q : Queue} {item : Item} (ascii : Ascii item.id) (rcptTo : item.rcptTo = addressOnly m.to_)
    (new : item.attempts = 0) :
    (q.Enqueue item).Follows (Intake m) (fun result d => result = .ok () → d = .entered item.id) (.drawn item.id) := by
  unfold Queue.Enqueue
  split
  · nofun
  rename_i named
  unfold storeItem
  split
  · nofun
  · rename_i blob encoded
    obtain ⟨back, decoded, cameBack⟩ := Library.cameBack item blob encoded
    have entry : Entry m item.id blob item back :=
      ⟨encoded, decoded, rcptTo, cameBack.id ascii, cameBack.attempts.trans new⟩
    apply Prog.Follows.bind
    intro answer
    cases answer with
    | error err => exact ⟨_, .unstored entry, nofun⟩
    | ok _ =>
      refine ⟨_, .stored entry named, fun answer => ?_⟩
      cases answer with
      | error err => exact ⟨_, .unqueued, nofun⟩
      | ok _ => exact ⟨_, .queued, fun _ => rfl⟩

lemma suppressionAllows_intake :
    (o.suppressionAllows m.to_).Follows (Intake m) (fun _ d => d = .drawn id) (.drawn id) := by
  unfold Options.suppressionAllows
  split
  · rfl
  intro enforces
  refine ⟨_, .inquires rfl, ?_⟩
  cases enforces with
  | false => rfl
  | true =>
    intro old
    refine ⟨_, .inquires rfl, ?_⟩
    cases old with
    | true => rfl
    | false =>
      intro answer
      refine ⟨_, .looksUp, ?_⟩
      match answer with
      | .error err => rfl
      | .ok (true, reason) => rfl
      | .ok (false, reason) => rfl

lemma Build_intake [Unicode] {now : Int} {messageID : Str} :
    (m.Build now messageID).Follows (Intake m) (fun _ d => d = .drawn id) (.drawn id) := by
  unfold Message.Build
  split
  · rfl
  dsimp only
  split
  · refine .bind (.bind fun answer => ⟨_, .inquires rfl, ?_⟩)
    cases answer <;> rfl
  split <;> rfl

lemma randomToken_intake : (randomToken 18).Follows (Intake m)
    (fun result d => ∀ id, result = .ok id → d = .drawn id ∧ Ascii id) .blank := by
  intro answer
  cases answer with
  | error err => exact ⟨_, .undrawn, nofun⟩
  | ok bytes =>
    refine ⟨_, .drawn, ?_⟩
    rintro _ ⟨⟩
    exact ⟨rfl, base64RawURL_ascii _⟩

/-- An `Accept` that succeeded has entered the id it drew. -/
lemma Accept_intake [Unicode] : (o.Accept m).Follows (Intake m)
    (fun result d => ∀ messageID, result = .ok messageID → ∃ id, d = .entered id ∧ messageID = id ++ lit "@" ++ o.domain)
    .blank := by
  apply randomToken_intake.andThen
  intro token d drawn
  cases token with
  | error err => nofun
  | ok id =>
    obtain ⟨rfl, ascii⟩ := drawn id rfl
    apply suppressionAllows_intake.andThen
    rintro allowed d rfl
    cases allowed with
    | error err => nofun
    | ok _ =>
      refine fun time => ⟨_, .inquires rfl, ?_⟩
      apply Build_intake.andThen
      rintro built d rfl
      match built with
      | .error err => nofun
      | .ok (headers, body) =>
        intro signed
        refine ⟨_, .inquires rfl, ?_⟩
        match signed with
        | .error err => nofun
        | .ok signature =>
          refine fun queued => ⟨_, .inquires rfl, ?_⟩
          apply (Enqueue_intake ascii rfl rfl).andThen
          intro result d entered
          match result with
          | .error err => nofun
          | .ok () =>
            rintro _ ⟨⟩
            exact ⟨_, entered rfl, rfl⟩

end

end EmailVerifier.Relay
