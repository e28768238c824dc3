import EmailVerifier.Redis.Client

/-! Pooled connections stay in step with their replies.

Each connection is in one hand at a time, or idle. What stands on it unread follows from
what its holder did last, and an idle connection has nothing unread; so what is read next
is the answer to what was written last. All of this rests on the reader taking each value
off the stream to its end.
-/

set_option autoImplicit false

namespace EmailVerifier.Redis
open Text Data Semantics

inductive Hand where
  | free
  | held (conn : Nat)
  | asked (conn : Nat) (bytes : Str) (v : Value)
  | heard (conn : Nat) (reply : Except Err Reply)
  | spoilt (conn : Nat)

def Hand.conn : Hand → Option Nat
  | .free => none
  | .held conn | .asked conn _ _ | .heard conn _ | .spoilt conn => some conn

def standing : Event calls → Hand
  | ⟨.take, some conn⟩ => .held conn
  | ⟨.take, none⟩ => .free
  | ⟨.dial, some conn⟩ => .held conn
  | ⟨.dial, none⟩ => .free
  | ⟨.setDeadline conn, _⟩ => .held conn
  | ⟨.write conn bytes, some v⟩ => .asked conn bytes v
  | ⟨.write conn _, none⟩ => .spoilt conn
  | ⟨.read conn, reply⟩ => .heard conn reply
  | ⟨.park _, _⟩ => .free
  | ⟨.close _, _⟩ => .free

def hand (did : Trace calls) : Hand := (did.getLast?.map standing).getD .free

@[simp] lemma hand_nil : hand [] = .free := rfl

@[simp] lemma hand_snoc (did : Trace calls) (e : Event calls) : hand (did ++ [e]) = standing e := by
  simp [hand]

def Exchanged (did : Trace calls) (bytes : Str) (v : Value) (reply : Except Err Reply) : Prop :=
  ∃ conn, [⟨.write conn bytes, some v⟩, ⟨.read conn, reply⟩] <:+: did

/-- A call takes a connection when it has none, reads right after it wrote, and gives back
only what did not fail. -/
def Proper (did : Trace calls) (e : Event calls) : Prop :=
  match e.op with
  | .take | .dial => hand did = .free
  | .setDeadline conn | .write conn _ => hand did = .held conn
  | .read conn => ∃ bytes v, hand did = .asked conn bytes v
  | .park conn => ∃ reply, hand did = .heard conn reply ∧ ¬ Failed reply
  | .close _ => True

abbrev Properly : World calls (Trace calls) := World.guarded Proper fun did e => did ++ [e]

-- A new event adds an exchange if it is the read that follows the write.
lemma exchanged_snoc {did : Trace calls} {e : Event calls} {bytes : Str} {v : Value} {reply : Except Err Reply}
    (exchanged : Exchanged (did ++ [e]) bytes v reply) :
    Exchanged did bytes v reply ∨ ∃ conn, e = ⟨.read conn, reply⟩ ∧ hand did = .asked conn bytes v := by
  obtain ⟨conn, inside⟩ := exchanged
  rcases List.infix_concat_iff.mp inside with ends | inside
  · obtain ⟨front, same⟩ := ends
    have split : (front ++ [⟨.write conn bytes, some v⟩]) ++ [⟨.read conn, reply⟩] = did ++ [e] := by simpa using same
    obtain ⟨rfl, last⟩ := List.append_inj' split rfl
    refine .inr ⟨conn, (List.cons.inj last).1.symm, ?_⟩
    rw [hand_snoc]
    rfl
  · exact .inl ⟨conn, inside⟩

section
variable {did : Trace calls}

/-- What `Do` leaves behind: nothing in hand, and unless it failed its command's exchange. -/
def Answers (args : List Str) (out : Except Err Reply) (did : Trace calls) : Prop :=
  hand did = .free ∧ (Failed out ∨ ∃ v, Exchanged did (encode args) v out)

lemma get_follows (free : hand did = .free) : get.Follows Properly
    (fun out did' => hand did' = (out.map Hand.held).getD .free) did := by
  apply Prog.Follows.heed (fun _ => free)
  intro idle
  cases idle with
  | some conn => exact hand_snoc _ _
  | none =>
    refine fun out => ⟨_, ⟨hand_snoc _ _, rfl⟩, ?_⟩
    cases out <;> exact hand_snoc _ _

lemma put_follows {conn : Nat} {reply : Except Err Reply} (heard : hand did = .heard conn reply) :
    (put conn reply).Follows Properly (fun _ did' => hand did' = .free ∧ did <+: did') did := by
  have fine (e : Event calls) : hand (did ++ [e]) = standing e := hand_snoc did e
  unfold put
  split
  · split
    · exact fun _ => ⟨_, ⟨trivial, rfl⟩, fine _, List.prefix_append _ _⟩
    · rename_i err kept
      refine fun _ => ⟨_, ⟨⟨_, heard, ?_⟩, rfl⟩, fine _, List.prefix_append _ _⟩
      rintro ⟨err', same, fatal⟩
      cases same
      exact kept fatal
  · refine fun _ => ⟨_, ⟨⟨_, heard, ?_⟩, rfl⟩, fine _, List.prefix_append _ _⟩
    rintro ⟨err, same, -⟩
    cases same

lemma Do_follows (args : List Str) (free : hand did = .free) : (Do args).Follows Properly (Answers args) did := by
  have failed : Failed (.error .transport) := ⟨.transport, rfl, rfl⟩
  refine (get_follows free).andThen fun got did holding => ?_
  cases got with
  | none => exact ⟨holding, .inl failed⟩
  | some conn =>
    apply Prog.Follows.heed (fun _ => holding)
    intro timed
    cases timed with
    | false => exact fun _ => ⟨_, ⟨trivial, rfl⟩, hand_snoc _ _, .inl failed⟩
    | true =>
      apply Prog.Follows.heed (fun _ => hand_snoc _ _)
      intro sent
      cases sent with
      | none => exact fun _ => ⟨_, ⟨trivial, rfl⟩, hand_snoc _ _, .inl failed⟩
      | some v =>
        apply Prog.Follows.heed (fun _ => ⟨_, v, hand_snoc _ _⟩)
        intro reply
        refine (put_follows (hand_snoc _ _)).andThen ?_
        rintro _ did' ⟨free, grown⟩
        refine ⟨free, .inr ⟨v, conn, ?_⟩⟩
        refine List.IsInfix.trans ⟨did ++ [⟨.setDeadline conn, true⟩], [], ?_⟩ grown.isInfix
        simp

/-- What a call returns: a failure, or what was read as the answer to a command of its. -/
def Told (result : Call × Except Err Reply) (did : Trace calls) : Prop :=
  Failed result.2 ∨ ∃ args ∈ result.1.commands, ∃ v, Exchanged did (encode args) v result.2

lemma called_follows (call : Call) : call.called.Follows Properly Told [] := by
  cases call with
  | Do args =>
    refine (Do_follows args hand_nil).andThen ?_
    rintro out did ⟨-, failed | ⟨v, exchanged⟩⟩
    · exact .inl failed
    · exact .inr ⟨args, List.mem_singleton_self _, v, exchanged⟩
  | Run s keys args =>
    refine Prog.Follows.andThen ?_ fun out did told => told
    refine (Do_follows _ hand_nil).andThen ?_
    rintro out did ⟨free, first⟩
    have answer : Told (.Run s keys args, out) did := by
      rcases first with failed | ⟨v, exchanged⟩
      · exact .inl failed
      · exact .inr ⟨_, List.mem_cons_self, v, exchanged⟩
    split
    · split
      · refine (Do_follows _ free).mono ?_
        rintro out did ⟨-, failed | ⟨v, exchanged⟩⟩
        · exact .inl failed
        · exact .inr ⟨_, List.mem_cons_of_mem _ (List.mem_singleton_self _), v, exchanged⟩
      · exact answer
    · exact answer

end

def Right (s : Shared) : Hand → Prop
  | .held conn => s.unread conn = []
  | .asked conn _ v => s.unread conn = encodeValue v ∧ leftover v = []
  | .heard conn reply => ¬ Failed reply → s.unread conn = []
  | .free | .spoilt _ => True

def inHand (running : List (Trace calls)) : List Nat := running.filterMap fun did => (hand did).conn

/-- Each connection is in one place, nothing is unread on an idle one, and every reply that
was read is the answer to what was written before it. -/
structure InStep (s : Shared) (running gone : List (Trace calls)) : Prop where
  apart : (s.idle ++ inHand running).Nodup
  opened : ∀ conn ∈ s.idle ++ inHand running, conn < s.opened
  idle : ∀ conn ∈ s.idle, s.unread conn = []
  right : ∀ did ∈ running, Right s (hand did)
  told : ∀ did ∈ running ++ gone, ∀ bytes v reply, Exchanged did bytes v reply → Failed reply ∨ reply = decode v

def Whole : Condition calls (Trace calls) Shared := fun _ _ _ e _ =>
  ∀ conn bytes v, e = ⟨.write conn bytes, some v⟩ → leftover v = []

lemma inHand_middle (before after : List (Trace calls)) (did : Trace calls) :
    (inHand (before ++ did :: after)).Perm ((hand did).conn.toList ++ inHand (before ++ after)) := by
  have first : inHand (did :: (before ++ after)) = (hand did).conn.toList ++ inHand (before ++ after) := by
    cases there : (hand did).conn <;> simp [inHand, there]
  rw [← first]
  exact List.perm_middle.filterMap _

lemma mem_inHand {running : List (Trace calls)} {did : Trace calls} {conn : Nat} (member : did ∈ running)
    (there : (hand did).conn = some conn) : conn ∈ inHand running :=
  List.mem_filterMap.mpr ⟨did, member, there⟩

lemma Right.congr {s s' : Shared} {h : Hand} (right : Right s h)
    (same : ∀ conn, h.conn = some conn → s'.unread conn = s.unread conn) : Right s' h := by
  cases h with
  | free | spoilt _ => trivial
  | held conn => exact (same conn rfl).trans right
  | asked conn bytes v => exact ⟨(same conn rfl).trans right.1, right.2⟩
  | heard conn reply => exact fun fine => (same conn rfl).trans (right fine)

lemma unread_same {s : Shared} {conn : Nat} {bytes : Str} : (s.receive conn bytes).unread conn = bytes :=
  Function.update_self _ _ _

lemma unread_other {s : Shared} {conn conn' : Nat} {bytes : Str} (other : conn' ≠ conn) :
    (s.receive conn bytes).unread conn' = s.unread conn' :=
  Function.update_of_ne other _ _

-- A connection that is closed is in no place any more.
lemma dropped_sublist (idle conns others : List Nat) : (idle ++ others).Sublist (idle ++ (conns ++ others)) :=
  (List.sublist_append_right _ _).append_left _

section
variable {s s' : Shared} {before after gone : List (Trace calls)} {did : Trace calls} {e : Event calls}

variable (inStep : InStep s (before ++ did :: after) gone)
include inStep

-- The places of the connections, with the one of the call in question apart.
lemma InStep.places :
    (s.idle ++ ((hand did).conn.toList ++ inHand (before ++ after))).Nodup ∧
      ∀ conn ∈ s.idle ++ ((hand did).conn.toList ++ inHand (before ++ after)), conn < s.opened := by
  have perm := (inHand_middle before after did).append_left s.idle
  exact ⟨perm.nodup inStep.apart, fun conn member => inStep.opened conn (perm.mem_iff.mpr member)⟩

/-- An event of one call keeps all in step if it keeps the connections apart, leaves those in
other hands alone, and its own and the idle ones in order. -/
lemma InStep.act
    (apart : (s'.idle ++ ((standing e).conn.toList ++ inHand (before ++ after))).Nodup)
    (opened : ∀ conn ∈ s'.idle ++ ((standing e).conn.toList ++ inHand (before ++ after)), conn < s'.opened)
    (idle : ∀ conn ∈ s'.idle, s'.unread conn = [])
    (others : ∀ conn ∈ inHand (before ++ after), s'.unread conn = s.unread conn) (right : Right s' (standing e))
    (told : ∀ conn reply, e = ⟨.read conn, reply⟩ → ∀ bytes v, hand did = .asked conn bytes v →
      Failed reply ∨ reply = decode v) : InStep s' (before ++ (did ++ [e]) :: after) gone := by
  have perm := (inHand_middle before after (did ++ [e])).append_left s'.idle
  rw [hand_snoc] at perm
  refine ⟨perm.symm.nodup apart, fun conn member => opened conn (perm.mem_iff.mp member), idle, fun other member => ?_,
    fun other member bytes v reply exchanged => ?_⟩
  · rcases mem_middle.mp member with rfl | member
    · rw [hand_snoc]
      exact right
    · refine (inStep.right other (mem_stays member)).congr fun conn there => others conn ?_
      exact mem_inHand member there
  · rw [List.append_assoc, List.cons_append] at member
    rcases mem_middle.mp member with rfl | member
    · rcases exchanged_snoc exchanged with old | ⟨conn, rfl, asked⟩
      · exact inStep.told did (by simp) bytes v reply old
      · exact told conn reply rfl bytes v asked
    · refine inStep.told other ?_ bytes v reply exchanged
      rw [List.append_assoc, List.cons_append]
      exact mem_middle.mpr (.inr member)

lemma InStep.serves (proper : Proper did e) (served : Serves s e s')
    (whole : ∀ conn bytes v, e = ⟨.write conn bytes, some v⟩ → leftover v = []) :
    InStep s' (before ++ (did ++ [e]) :: after) gone := by
  obtain ⟨apart, opened⟩ := inStep.places
  have mine : Right s (hand did) := inStep.right did (by simp)
  -- What is idle or in another hand is not what this call holds.
  have other {conn conn' : Nat} (holding : (hand did).conn = some conn)
      (member : conn' ∈ s.idle ∨ conn' ∈ inHand (before ++ after)) : conn' ≠ conn := by
    rintro rfl
    rw [holding] at apart
    simp only [Option.toList_some, List.nodup_append, List.mem_append, List.mem_singleton] at apart
    rcases member with idle | hand
    · exact apart.2.2 _ idle _ (.inl rfl) rfl
    · exact apart.2.1.2.2 _ rfl _ hand rfl
  have untouched {conn : Nat} (holding : (hand did).conn = some conn) (bytes : Str) :
      (∀ c ∈ s.idle, (s.receive conn bytes).unread c = []) ∧
        ∀ c ∈ inHand (before ++ after), (s.receive conn bytes).unread c = s.unread c :=
    ⟨fun c member => (unread_other (other holding (.inl member))).trans (inStep.idle c member),
      fun c member => unread_other (other holding (.inr member))⟩
  cases served with
  | @took _ idle conn same =>
    have free : hand did = .free := proper
    rw [free, same, List.append_assoc] at apart opened
    refine inStep.act apart opened (fun c member => ?_) (fun _ _ => rfl) ?_ nofun
    · exact inStep.idle c (by simp [same, member])
    · exact inStep.idle conn (by simp [same])
  | noneIdle _ =>
    have free : hand did = .free := proper
    rw [free] at apart opened
    exact inStep.act apart opened inStep.idle (fun _ _ => rfl) trivial nofun
  | dialled =>
    have free : hand did = .free := proper
    rw [free] at apart opened
    have fresh (c : Nat) (member : c ∈ s.idle ++ inHand (before ++ after)) : c ≠ s.opened :=
      (opened c (by simpa [Hand.conn] using member)).ne
    refine inStep.act ?_ (fun c member => ?_) (fun c member => ?_) (fun c member => ?_) ?_ nofun
    · change (s.idle ++ s.opened :: inHand (before ++ after)).Nodup
      rw [List.perm_middle.nodup_iff]
      exact List.nodup_cons.mpr ⟨fun member => fresh _ member rfl, apart⟩
    · change c ∈ s.idle ++ s.opened :: inHand (before ++ after) at member
      rcases mem_middle.mp member with rfl | old
      · exact Nat.lt_succ_self _
      · exact (opened c (by simpa [Hand.conn] using old)).trans (Nat.lt_succ_self _)
    · exact (unread_other (fresh c (List.mem_append_left _ member))).trans (inStep.idle c member)
    · exact unread_other (fresh c (List.mem_append_right _ member))
    · exact unread_same
  | undialled =>
    have free : hand did = .free := proper
    rw [free] at apart opened
    exact inStep.act apart opened inStep.idle (fun _ _ => rfl) trivial nofun
  | @timed _ conn ok =>
    have held : hand did = .held conn := proper
    rw [held] at apart opened mine
    exact inStep.act apart opened inStep.idle (fun _ _ => rfl) mine nofun
  | @written _ conn bytes v =>
    have held : hand did = .held conn := proper
    obtain ⟨idle, others⟩ := untouched (congrArg Hand.conn held) _
    rw [held] at apart opened mine
    refine inStep.act apart opened idle others ⟨?_, whole conn bytes v rfl⟩ nofun
    rw [unread_same, mine, List.nil_append]
  | @unwritten _ conn bytes received =>
    have held : hand did = .held conn := proper
    obtain ⟨idle, others⟩ := untouched (congrArg Hand.conn held) _
    rw [held] at apart opened
    exact inStep.act apart opened idle others trivial nofun
  | @read _ conn arrived more sent =>
    obtain ⟨bytes, v, asked⟩ := proper
    obtain ⟨idle, others⟩ := untouched (congrArg Hand.conn asked) _
    rw [asked] at apart opened mine
    have known := readReply_arrived v (mine.1.symm.trans sent)
    refine inStep.act apart opened idle others (fun fine => ?_) fun conn' reply same bytes' v' there => ?_
    · rw [unread_same, (known.resolve_left fine).2, mine.2]
    · cases same
      rw [asked] at there
      cases there
      exact known.imp_right And.left
  | @parked _ conn =>
    obtain ⟨reply, heard, fine⟩ := proper
    rw [heard] at apart opened mine
    split
    · refine inStep.act ?_ ?_ (forall_mem_snoc.mpr ⟨inStep.idle, mine fine⟩) (fun _ _ => rfl) trivial nofun
      · change (s.idle ++ [conn] ++ inHand (before ++ after)).Nodup
        rwa [List.append_assoc]
      · change ∀ c ∈ s.idle ++ [conn] ++ inHand (before ++ after), c < s.opened
        rwa [List.append_assoc]
    · exact inStep.act ((dropped_sublist _ _ _).nodup apart) (fun c member => opened c ((dropped_sublist _ _ _).subset member)) inStep.idle (fun _ _ => rfl) trivial
        nofun
  | @closed _ conn =>
    exact inStep.act ((dropped_sublist _ _ _).nodup apart) (fun c member => opened c ((dropped_sublist _ _ _).subset member)) inStep.idle (fun _ _ => rfl) trivial nofun

end

lemma client_keeping : Keeping client Proper (fun did e => did ++ [e]) [] Whole Told InStep where
  join s running gone inStep := by
    have same : inHand (running ++ [[]]) = inHand running := by simp [inHand, Hand.conn]
    refine ⟨same ▸ inStep.apart, same ▸ inStep.opened, inStep.idle, forall_mem_snoc.mpr ⟨inStep.right, trivial⟩,
      fun did member => ?_⟩
    · simp only [List.mem_append, List.mem_singleton, or_assoc] at member
      rcases member with old | rfl | old
      · exact inStep.told did (List.mem_append_left _ old)
      · rintro bytes v reply ⟨conn, inside⟩
        cases List.infix_nil.mp inside
      · exact inStep.told did (List.mem_append_right _ old)
  act _ _ _ _ _ _ _ inStep proper served whole := inStep.serves proper served whole
  leave s before did after gone inStep _ := by
    obtain ⟨apart, opened⟩ := inStep.places
    have fewer : (s.idle ++ inHand (before ++ after)).Sublist _ := dropped_sublist s.idle (hand did).conn.toList _
    exact ⟨fewer.nodup apart, fun conn member => opened conn (fewer.subset member), inStep.idle,
      fun other member => inStep.right other (mem_stays member), fun other member => inStep.told other (mem_leaves.mp member)⟩
  drift pool s' running gone drifts inStep := by
    obtain rfl : s' = { pool.shared with idle := [] } := drifts
    have fewer : (inHand running).Sublist (pool.shared.idle ++ inHand running) := List.sublist_append_right _ _
    exact ⟨fewer.nodup inStep.apart, fun conn member => inStep.opened conn (fewer.subset member), nofun,
      fun did member => (inStep.right did member).congr fun _ _ => rfl, inStep.told⟩

/-- Where nothing comes after an error in what the server sends, a call that did not fail
returns what the server's answer to its own command says, and nothing is unread on an idle
connection. -/
theorem replies_in_step {poolSize : Int} {pool : Calls}
    (reached : Pool.ReachesIf client (fun did e => did ++ [e]) [] Whole (New poolSize) pool) :
    (∀ did call out, (did, some (call, out)) ∈ pool.gone → Failed out ∨
      ∃ args ∈ call.commands, ∃ v, Exchanged did (encode args) v out ∧ out = decode v) ∧
    (∀ did ∈ pool.traces, ∀ bytes v reply, Exchanged did bytes v reply → Failed reply ∨ reply = decode v) ∧
    ∀ conn ∈ pool.shared.idle, pool.shared.unread conn = [] := by
  have jobs : ∀ p, client.job p → p.Follows Properly Told [] := by
    rintro _ ⟨call, rfl⟩
    exact called_follows call
  have first : InStep (New poolSize).shared [] [] := ⟨List.nodup_nil, nofun, nofun, nofun, nofun⟩
  have start : (New poolSize).Orderly Proper (fun did e => did ++ [e]) Told [] := ⟨nofun, nofun⟩
  obtain ⟨orderly, inStep⟩ := client_keeping.reached jobs start first reached
  have told : ∀ did ∈ pool.traces, ∀ bytes v reply, Exchanged did bytes v reply → Failed reply ∨ reply = decode v := by
    rw [← pool.hands_traces]
    exact inStep.told
  refine ⟨fun did call out returned => ?_, told, inStep.idle⟩
  have there : did ∈ pool.traces := List.mem_append_right _ (List.mem_map_of_mem (f := Prod.fst) returned)
  have result := orderly.returned did _ returned
  rw [foldl_snoc, List.nil_append] at result
  rcases result with failed | ⟨args, member, v, exchanged⟩
  · exact .inl failed
  · rcases told did there _ v out exchanged with failed | same
    · exact .inl failed
    · exact .inr ⟨args, member, v, exchanged, same⟩

/-! A server to try: everything works, and each command of a call gets the same answer. -/

def serving (v : Value) : Player calls Shared := fun s op =>
  match op with
  | .take => (s.idle.getLast?, { s with idle := s.idle.dropLast })
  | .dial => (some s.opened, { s.receive s.opened [] with opened := s.opened + 1 })
  | .setDeadline _ => (true, s)
  | .write conn _ => (some v, s.receive conn (s.unread conn ++ encodeValue v))
  | .read conn => ((readReply (s.unread conn)).1, s.receive conn ((readReply (s.unread conn)).2 ++ []))
  | .park conn => ((), if s.idle.length < s.cap then { s with idle := s.idle ++ [conn] } else s)
  | .close _ => ((), s)

lemma serving_admitted (v : Value) (s : Shared) (op : Op) : Serves s ⟨op, (serving v s op).1⟩ (serving v s op).2 := by
  cases op with
  | take =>
    obtain ⟨idle, cap, unread, opened⟩ := s
    rcases List.eq_nil_or_concat' idle with rfl | ⟨front, conn, rfl⟩
    · exact .noneIdle rfl
    · simp only [serving, List.getLast?_append, List.getLast?_singleton, Option.some_or, List.dropLast_concat]
      exact .took rfl
  | dial => exact .dialled
  | setDeadline conn => exact .timed
  | write conn bytes => exact .written
  | read conn => exact .read (List.append_nil _).symm
  | park conn => exact .parked
  | close conn => exact .closed

def call (v : Value) (c : Call) (s : Shared) : Trace calls × (Call × Except Err Reply) × Shared := c.called.play (serving v) s

lemma call_returns (v : Value) (c : Call) (s : Shared) (gone : List (Trace calls × Option (Call × Except Err Reply))) :
    Pool.Reaches client ⟨s, [], gone⟩ ⟨(call v c s).2.2, [], gone ++ [((call v c s).1, some (call v c s).2.1)]⟩ := by
  refine Pool.Reaches.returns ⟨c, rfl⟩ ?_
  exact Prog.play_runs id (fun s op => ⟨serving_admitted v s op, fun _ => trivial⟩) c.called s

def oops : Line := ⟨lit "ERR oops", (by decide : Plain (lit "ERR oops"))⟩

def broken : Value := .array [.error oops, .int 1 (by unfold Fits64; omega)]

def execCommand : Call := .Do [lit "EXEC"]

def getCommand : Call := .Do [lit "GET", lit "k"]

def afterExec : Trace calls × (Call × Except Err Reply) × Shared := call broken execCommand (New 0).shared

def afterGet : Trace calls × (Call × Except Err Reply) × Shared := call (.bulk (lit "a")) getCommand afterExec.2.2

lemma afterGet_trace : afterGet.1 = [⟨.take, some 0⟩, ⟨.setDeadline 0, true⟩,
    ⟨.write 0 (encode [lit "GET", lit "k"]), some (.bulk (lit "a"))⟩, ⟨.read 0, .ok (.int 1)⟩, ⟨.park 0, ()⟩] := rfl

/-- The element after the error stays on the connection, and is taken for the next answer. -/
theorem leftover_answers_next : ∃ pool pool' : Calls, Pool.Reaches client (New 0) pool ∧ Pool.Reaches client pool pool' ∧
    (∃ conn ∈ pool.shared.idle, pool.shared.unread conn ≠ []) ∧
    ∃ did v out, (did, some (getCommand, out)) ∈ pool'.gone ∧ Exchanged did (encode [lit "GET", lit "k"]) v out ∧
      ¬ Failed out ∧ out ≠ decode v := by
  refine ⟨_, _, call_returns broken execCommand (New 0).shared [], call_returns (.bulk (lit "a")) getCommand _ _, ?_, ?_⟩
  · have there : 0 ∈ afterExec.2.2.idle ∧ afterExec.2.2.unread 0 ≠ [] := by decide +kernel
    exact ⟨0, there⟩
  · refine ⟨afterGet.1, .bulk (lit "a"), .ok (.int 1), List.mem_append_right _ (List.mem_singleton_self _), ⟨0, ?_⟩, ?_, ?_⟩
    · rw [afterGet_trace]
      exact ⟨[⟨.take, some 0⟩, ⟨.setDeadline 0, true⟩], [⟨.park 0, ()⟩], rfl⟩
    · rintro ⟨err, same, -⟩
      cases same
    · intro same
      rw [decode] at same
      cases same

lemma call_in_step {v : Value} (whole : leftover v = []) (c : Call) (s : Shared)
    (gone : List (Trace calls × Option (Call × Except Err Reply))) :
    Pool.ReachesIf client (fun did e => did ++ [e]) [] Whole ⟨s, [], gone⟩
      ⟨(call v c s).2.2, [], gone ++ [((call v c s).1, some (call v c s).2.1)]⟩ := by
  refine Pool.ReachesIf.returns rfl ⟨c, rfl⟩ (Prog.play_runs id (fun s op => ?_) c.called s)
  refine ⟨serving_admitted v s op, fun _ => trivial, fun _ conn bytes sent same => ?_⟩
  cases op with
  | write _ _ =>
    cases same
    exact whole
  | _ => cases same

def afterFailed : Trace calls × (Call × Except Err Reply) × Shared :=
  call (.array [.int 1 (by unfold Fits64; omega), .error oops]) execCommand (New 0).shared

def pooledGet : Trace calls × (Call × Except Err Reply) × Shared :=
  call (.bulk (lit "a")) getCommand afterFailed.2.2

/-- An answer that ends in an error is read to its end, and the next command, on the same
connection, is answered as the server answered it. -/
theorem pooledGet_in_step : afterFailed.2.1 = (execCommand, .error (.rejected (lit "ERR oops"))) ∧
    pooledGet.1.head? = some ⟨.take, some 0⟩ ∧ pooledGet.2.1 = (getCommand, .ok (.text (lit "a"))) ∧
    (∃ args ∈ getCommand.commands, ∃ v, Exchanged pooledGet.1 (encode args) v pooledGet.2.1.2 ∧ pooledGet.2.1.2 = decode v) ∧
    ∀ conn ∈ pooledGet.2.2.idle, pooledGet.2.2.unread conn = [] := by
  have ended : leftover (.array [.int 1 (by unfold Fits64; omega), .error oops]) = [] := by decide +kernel
  have reached := (call_in_step ended execCommand (New 0).shared []).trans
    (call_in_step (v := .bulk (lit "a")) (by rw [leftover]; nofun) getCommand afterFailed.2.2 _)
  obtain ⟨returned, -, idle⟩ := replies_in_step reached
  have result : pooledGet.2.1 = (getCommand, .ok (.text (lit "a"))) := rfl
  refine ⟨rfl, rfl, result, ?_, idle⟩
  rcases returned pooledGet.1 getCommand pooledGet.2.1.2 (List.mem_append_right _ (List.mem_singleton_self _)) with
    ⟨err, failed, -⟩ | answered
  · rw [result] at failed
    cases failed
  · exact answered

end EmailVerifier.Redis
