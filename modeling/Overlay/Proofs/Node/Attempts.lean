import Mathlib.Algebra.GroupWithZero.Nat
import Overlay.Proofs.Node.Contacts

/-!
The attempts of a round of gossip.

An attempt is a connection to the gossip service of a peer. What becomes of it depends on the
network alone: it has failed unless a whole frame was read that holds a reply without objection
(`keeps_exchange`). A round makes at most two attempts, at different peers, and the second one only
where the first has failed and somebody is left to turn to (`round_disciplined`).
-/

set_option autoImplicit false

namespace Overlay.Node.Attempts

open Attempt Chance Program Surroundings
open Wire (IsFrame Layout not_isFrame_nil)

variable {algorithm : Algorithm}

section Attempts

/-- A connection was made for an attempt at a peer, to its gossip service, and had the time that
such an attempt may take. -/
structure Contact.Made (engine : Engine) (target : PeerRecord) (contact : Contact) : Prop where
  address : contact.address = target.address
  tag : contact.tag = .gossip
  patience : contact.patience = engine.patience
  deadline : contact.deadline = contact.began.after engine.patience
  timely : contact.extended = false

/-- What was read from a connection begins with a reply without objection. -/
def Contact.Brings (engine : Engine) (maximum : Nat) (target : PeerRecord) (contact : Contact)
    (reply : Message) : Prop :=
  IsFrame Layout.message maximum contact.heard reply ∧ engine.objection? target reply = none

/-- A peer that a second attempt may turn to when another one has failed. -/
def Spare (engine : Engine) (failed : PeerId) (record : PeerRecord) : Prop :=
  ∃ pool, engine.fallback = some pool ∧ record ∈ pool.records ∧
    record.id ≠ failed ∧ record.id ≠ engine.owner

variable {first : Node} {contacts : List Contact} {now : Watch} {engine current : Engine}
  {target : PeerRecord}

theorem alike_retried (current : Engine) : Alike current current.retried := ⟨rfl, rfl, rfl, rfl⟩

theorem alike_failed (current : Engine) : Alike current current.failed := ⟨rfl, rfl, rfl, rfl⟩

theorem Alike.retries (alike : Alike engine current) : current.retries = engine.retries := by
  rw [Engine.retries, Engine.retries, alike.settings, alike.fallback]

theorem Alike.patience (alike : Alike engine current) : current.patience = engine.patience := by
  rw [Engine.patience, Engine.patience, alike.retries, alike.settings]

theorem Alike.objection? (alike : Alike engine current) (target : PeerRecord) (reply : Message) :
    current.objection? target reply = engine.objection? target reply := by
  rw [Engine.objection?, Engine.objection?, alike.algorithm]

theorem Alike.spare (alike : Alike engine current) {failed : PeerId} {record : PeerRecord} :
    Spare current failed record ↔ Spare engine failed record := by
  rw [Spare, Spare, alike.fallback, alike.owner]

theorem sender_of_objection? {reply : Message} (accepted : engine.objection? target reply = none) :
    reply.sender.id = target.id := by
  rw [Engine.objection?] at accepted
  split at accepted
  · cases accepted
  · simpa using accepted

theorem mem_alternatives {failed : PeerId} {record : PeerRecord} :
    (record ∈ engine.fallbackNodes.filter fun record =>
      record.id != failed && record.id != engine.owner) ↔ Spare engine failed record := by
  rw [Engine.fallbackNodes]
  cases kept : engine.fallback with
  | none => simp [Spare, kept]
  | some pool => simp [Spare, kept]

/-- Somebody is found for a second attempt where there is anybody. -/
theorem fallbackTarget_spare (engine : Engine) (failed : PeerId) :
    (engine.fallbackTarget failed).Ensures fun found =>
      (∀ record ∈ found, Spare engine failed record) ∧
        (found = none → ∀ record, ¬ Spare engine failed record) := by
  simp only [Engine.fallbackTarget]
  split
  · next empty =>
      refine (ensures_pure _ _).mpr ⟨fun _ found => absurd found (Option.not_mem_none _), ?_⟩
      rintro - record spare
      rw [← mem_alternatives, List.isEmpty_iff.mp empty] at spare
      cases spare
  · next some =>
      have positive := List.length_pos_iff.mpr (mt List.isEmpty_iff.mpr some)
      refine (ensures_index _ positive).bind fun place inside => (ensures_pure _ _).mpr ?_
      rw [List.getElem?_eq_getElem inside]
      refine ⟨?_, fun none => absurd none (Option.some_ne_none _)⟩
      rintro record ⟨⟩
      exact mem_alternatives.mp (List.getElem_mem inside)

theorem keeps_talk {request : Message} {patience : Duration} {maximum : Nat}
    {post : Except Failure Message → Watch → Prop} (still : Still algorithm first contacts now)
    (holds : ∀ result began heard after, Received Layout.message maximum heard result →
      Still algorithm first
        (⟨target.address, .gossip, began, patience, began.after patience, false, heard, none⟩
          :: contacts) after → post result after) :
    (watched algorithm).Keeps (talk target request patience maximum).run post now := by
  simp only [talk, keeps_run_bind]
  refine keeps_limit still fun ready still => ?_
  let contact (heard : Wire.Bytes) : Contact :=
    ⟨target.address, .gossip, ready.latest, patience, ready.latest.after patience, false, heard,
      none⟩
  have noted (reply : Connecting) (node : Node) (waited : Spares algorithm ready.node node) :
      Still algorithm first (contact [] :: contacts) (noting
        (.connect target.address .gossip patience (ready.latest.after patience)) reply
        { ready with node }) :=
    ⟨still.spared.trans waited, congrArg (contact [] :: ·) still.contacts⟩
  refine keeps_connected noted (fun stream opened still => ?_) fun failure after still => ?_
  · rw [keeps_run_bind]
    refine keeps_sendFrame still (timely_cons rfl) fun result sent still => ?_
    cases result with
    | error failure =>
        intro node waited
        exact holds _ ready.latest [] _ (fun _ => not_isFrame_nil) (still.wait waited)
    | ok sent =>
        refine keeps_receiveFrame still (timely_cons rfl)
          (fun _ decoded => by cases decoded)
          fun result heard after received still node waited => ?_
        exact holds result ready.latest heard _ received (still.wait waited)
  · exact holds _ ready.latest [] after (fun _ => not_isFrame_nil) still

/-- An exchange is one attempt. It fails just if it brings no reply. -/
theorem keeps_exchange {post : Except Failure Nat → Watch → Prop}
    (runs : first.running? algorithm = some engine) (still : Still algorithm first contacts now)
    (answered : ∀ contact reply after, contact.Made engine target →
      contact.Brings engine first.settings.maxMessageBytes.toNat target reply →
      after.contacts = contact :: contacts → post (.ok reply.entries.length) after)
    (failed : ∀ failure contact after, contact.Made engine target →
      (∀ reply, ¬ contact.Brings engine first.settings.maxMessageBytes.toNat target reply) →
      Still algorithm first (contact :: contacts) after → post (.error failure) after) :
    (watched algorithm).Keeps (exchange algorithm target).run post now := by
  simp only [exchange, keeps_run_bind, keeps_run_get, keeps_run_perform, look_watched]
  have alike := (still.engine runs).2
  rw [alike.patience, still.spared.settings]
  refine keeps_draw still (ensures_true _) fun request drawn _ still => ?_
  refine keeps_talk still fun result began heard told received still => ?_
  let contact : Contact :=
    ⟨target.address, .gossip, began, engine.patience, began.after engine.patience, false, heard,
      none⟩
  have made : contact.Made engine target := ⟨rfl, rfl, rfl, rfl, rfl⟩
  cases result with
  | error failure =>
      exact failed failure contact told made (fun reply brings => received reply brings.1) still
  | ok reply =>
      dsimp only
      split
      · next failure objected =>
          rw [alike.objection?] at objected
          -- The bytes hold one reply at most, so the objection is to whatever they bring.
          refine failed failure contact told made (fun other brings => ?_) still
          obtain rfl := received.unique brings.1
          cases objected.symm.trans brings.2
      · next accepted =>
          rw [alike.objection?] at accepted
          simp only [keeps_run_bind, keeps_run_get, keeps_run_perform]
          -- The engine is another one from here on, but the round has nothing left to ask it.
          refine ⟨trivial, trivial, answered contact reply _ made ⟨received, accepted⟩ ?_⟩
          exact still.contacts

theorem keeps_secondTarget {failed : PeerId} {post : Option PeerRecord → Watch → Prop}
    (runs : first.running? algorithm = some engine) (still : Still algorithm first contacts now)
    (found : ∀ record after, engine.retries → Spare engine failed record →
      Still algorithm first contacts after → post (some record) after)
    (nobody : ∀ after, ¬ (engine.settings.gossipRetry ∧ ∃ record, Spare engine failed record) →
      Still algorithm first contacts after → post none after) :
    (watched algorithm).Keeps (secondTarget algorithm failed) post now := by
  simp only [secondTarget, keeps_bind, keeps_get]
  have alike := (still.engine runs).2
  refine keeps_ite (fun retries => ?_) fun never => ?_
  · rw [look_watched, alike.retries] at retries
    refine keeps_draw still (fallbackTarget_spare _ _) fun second after chosen still => ?_
    cases second with
    | some record => exact found record after retries (alike.spare.mp (chosen.1 record rfl)) still
    | none =>
        refine nobody after ?_ still
        rintro ⟨_, record, spare⟩
        exact chosen.2 rfl record (alike.spare.mpr spare)
  · refine nobody now ?_ still
    rintro ⟨wanted, record, pool, kept, _⟩
    rw [look_watched, alike.retries, Engine.retries, wanted, kept] at never
    exact never rfl

theorem keeps_blame {event : Event} {peer : PeerId} {contact : Contact}
    {post : Unit → Watch → Prop} (still : Still algorithm first (contact :: contacts) now)
    (noted : ∀ middle, noting (.report event) () middle =
      { middle with contacts := middle.contacts.modifyHead (.blaming peer) })
    (holds : ∀ after, Still algorithm first (contact.blaming peer :: contacts) after →
      post () after) :
    (watched algorithm).Keeps (Program.report event) post now := by
  refine keeps_request.mpr fun reply node _ waited => ?_
  rw [noted]
  refine holds _ ⟨still.spared.trans waited, ?_⟩
  rw [still.contacts]
  rfl

/-- An attempt that failed, and was reported to have failed. -/
structure Contact.Failed (engine : Engine) (maximum : Nat) (target : PeerRecord)
    (contact : Contact) : Prop extends contact.Made engine target where
  nothing : ∀ reply, ¬ contact.Brings engine maximum target reply
  blamed : contact.blamed = some target.id

/-- An attempt that brought a reply. -/
structure Contact.Answered (engine : Engine) (maximum : Nat) (target : PeerRecord)
    (reply : Message) (contact : Contact) : Prop extends contact.Made engine target where
  brings : contact.Brings engine maximum target reply

theorem failed_blaming {maximum : Nat} {contact : Contact} (made : contact.Made engine target)
    (nothing : ∀ reply, ¬ contact.Brings engine maximum target reply) :
    (contact.blaming target.id).Failed engine maximum target :=
  ⟨⟨made.address, made.tag, made.patience, made.deadline, made.timely⟩, nothing, rfl⟩

theorem keeps_retry {post : Except Failure Round → Watch → Prop}
    (runs : first.running? algorithm = some engine) (still : Still algorithm first contacts now)
    (answered : ∀ contact reply after,
      contact.Answered engine first.settings.maxMessageBytes.toNat target reply →
      after.contacts = contact :: contacts →
      post (.ok (.exchanged target.id reply.entries.length true)) after)
    (failed : ∀ failure contact after,
      contact.Failed engine first.settings.maxMessageBytes.toNat target →
      after.contacts = contact :: contacts → post (.error failure) after) :
    (watched algorithm).Keeps (retry algorithm target).run post now := by
  simp only [retry, keeps_run_bind, keeps_run_perform]
  refine keeps_updateEngine runs still alike_retried fun begun still => ?_
  refine keeps_exchange runs still (fun contact reply after made brings seen => ?_)
    fun failure contact tried made nothing still => ?_
  · exact answered contact reply after ⟨made, brings⟩ seen
  · simp only [keeps_run_bind, keeps_run_perform]
    refine keeps_updateEngine runs still alike_failed fun counted still => ?_
    refine keeps_blame still (fun _ => rfl) fun after still => ?_
    exact failed failure _ after (failed_blaming made nothing) still.contacts

/-- How a round may go: its outcome, the peers that it turned to and the connections that it made,
in their order. -/
inductive Course (engine : Engine) (own : PeerId) (maximum : Nat) :
    Except Failure Round → List PeerRecord → List Contact → Prop
  | skipped : Course engine own maximum (.ok .skipped) [] []
  | first {target : PeerRecord} {contact : Contact} {reply : Message} (foreign : target.id ≠ own)
      (answered : contact.Answered engine maximum target reply) :
      Course engine own maximum (.ok (.exchanged target.id reply.entries.length false))
        [target] [contact]
  | lone {target : PeerRecord} {contact : Contact} {failure : Failure}
      (foreign : target.id ≠ own) (failed : contact.Failed engine maximum target)
      (nobody : ¬ (engine.settings.gossipRetry ∧ ∃ record, Spare engine target.id record)) :
      Course engine own maximum (.error failure) [target] [contact]
  | second {target second : PeerRecord} {early late : Contact} {reply : Message}
      (foreign : target.id ≠ own) (failed : early.Failed engine maximum target)
      (retries : engine.retries) (spare : Spare engine target.id second)
      (answered : late.Answered engine maximum second reply) :
      Course engine own maximum (.ok (.exchanged second.id reply.entries.length true))
        [target, second] [early, late]
  | lost {target second : PeerRecord} {early late : Contact} {failure : Failure}
      (foreign : target.id ≠ own) (failed : early.Failed engine maximum target)
      (retries : engine.retries) (spare : Spare engine target.id second)
      (again : late.Failed engine maximum second) :
      Course engine own maximum (.error failure) [target, second] [early, late]

theorem keeps_attempts {own : PeerId} (runs : first.running? algorithm = some engine)
    (still : Still algorithm first [] now) (foreign : target.id ≠ own) :
    (watched algorithm).Keeps (attempts algorithm target).run (fun result after =>
      ∃ targets, Course engine own first.settings.maxMessageBytes.toNat result targets
        after.contacts.reverse) now := by
  simp only [attempts, keeps_run_bind, keeps_run_perform]
  refine keeps_exchange runs still (fun contact reply after made brings seen => ?_)
    fun failure contact tried made nothing still => ?_
  · rw [keeps_run_pure, seen]
    exact ⟨_, .first foreign ⟨made, brings⟩⟩
  · have early := failed_blaming made nothing
    simp only [keeps_run_bind, keeps_run_perform]
    refine keeps_blame still (fun _ => rfl) fun reported still => ?_
    refine keeps_secondTarget runs still (fun second chosen retries spare still => ?_)
      fun chosen nobody still => ?_
    · refine keeps_retry runs still (fun contact reply after answered seen => ?_)
        fun failure contact after again seen => ?_
      · rw [seen]
        exact ⟨_, .second foreign early retries spare answered⟩
      · rw [seen]
        exact ⟨_, .lost foreign early retries spare again⟩
    · simp only [keeps_run_bind, keeps_run_perform]
      refine keeps_updateEngine runs still alike_failed fun after still => ?_
      rw [keeps_run_throw, still.contacts]
      exact ⟨_, .lone foreign early nobody⟩

theorem keeps_round {latest : Instant} (runs : first.running? algorithm = some engine) :
    (watched algorithm).Keeps (round algorithm).run (fun result after =>
      ∃ targets, Course engine first.record.id first.settings.maxMessageBytes.toNat result targets
        after.contacts.reverse) ⟨first, latest, []⟩ := by
  have still : Still algorithm first [] ⟨first, latest, []⟩ := ⟨.refl first, rfl⟩
  simp only [round, keeps_run_bind, keeps_run_perform]
  refine keeps_seedCache runs still fun seeded still => ?_
  refine keeps_onEngine runs still (fun current => ?_) fun target aged still => ?_
  · exact (ensures_true _).bind fun _ _ => (ensures_pure _ _).mpr ⟨rfl, rfl, rfl, rfl⟩
  cases target with
  | none =>
      simp only [keeps_run_bind, keeps_run_perform, keeps_run_pure]
      refine keeps_report still (fun _ => rfl) fun after still => ?_
      rw [still.contacts]
      exact ⟨_, .skipped⟩
  | some target =>
      simp only [keeps_run_bind, keeps_run_get]
      refine keeps_run_ite (fun _ => ?_) fun other => ?_
      · rw [keeps_run_pure, still.contacts]
        exact ⟨_, .skipped⟩
      · rw [look_watched, still.spared.id] at other
        exact keeps_attempts runs still other

end Attempts

section Discipline

variable {engine : Engine} {own : PeerId} {maximum : Nat} {result : Except Failure Round}
  {targets : List PeerRecord} {contacts : List Contact}

theorem patience_le (engine : Engine) :
    engine.patience.nanos ≤ engine.settings.patience.nanos := by
  rw [Engine.patience]
  split
  · exact Nat.div_le_self _ 2
  · exact Nat.le_refl _

theorem patience_twice (retries : engine.retries) :
    engine.patience.nanos + engine.patience.nanos ≤ engine.settings.patience.nanos := by
  rw [Engine.patience, if_pos retries]
  change engine.settings.patience.nanos / 2 + engine.settings.patience.nanos / 2 ≤ _
  omega

theorem gossipRetry_of_retries (retries : engine.retries) : engine.settings.gossipRetry :=
  (Bool.and_eq_true_iff.mp retries).1

namespace Course

theorem made (course : Course engine own maximum result targets contacts) :
    List.Forall₂ (Contact.Made engine) targets contacts := by
  cases course with
  | skipped => exact .nil
  | first _ answered => exact .cons answered.toMade .nil
  | lone _ failed => exact .cons failed.toMade .nil
  | second _ failed _ _ answered => exact .cons failed.toMade (.cons answered.toMade .nil)
  | lost _ failed _ _ again => exact .cons failed.toMade (.cons again.toMade .nil)

/-- An attempt can be told by its peer: each that failed was reported, and the other one is the
outcome. -/
theorem named (course : Course engine own maximum result targets contacts) :
    List.Forall₂ (fun target contact => contact.blamed = some target.id ∨
      ∃ received viaFallback, result = .ok (.exchanged target.id received viaFallback))
      targets contacts := by
  cases course with
  | skipped => exact .nil
  | first => exact .cons (.inr ⟨_, _, rfl⟩) .nil
  | lone _ failed => exact .cons (.inl failed.blamed) .nil
  | second _ failed => exact .cons (.inl failed.blamed) (.cons (.inr ⟨_, _, rfl⟩) .nil)
  | lost _ failed _ _ again => exact .cons (.inl failed.blamed) (.cons (.inl again.blamed) .nil)

theorem few (course : Course engine own maximum result targets contacts) :
    targets.length ≤ 2 := by
  cases course with
  | skipped => exact Nat.zero_le 2
  | first => exact Nat.le_succ 1
  | lone => exact Nat.le_succ 1
  | second => exact Nat.le_refl 2
  | lost => exact Nat.le_refl 2

theorem foreign (course : Course engine own maximum result targets contacts)
    (owner : engine.owner = own) : ∀ target ∈ targets, target.id ≠ own := by
  have pair {target second : PeerRecord} (other : target.id ≠ own)
      (spare : Spare engine target.id second) : ∀ peer ∈ [target, second], peer.id ≠ own := by
    obtain ⟨_, _, _, _, foreign⟩ := spare
    rw [owner] at foreign
    exact List.forall_mem_cons.mpr ⟨other, List.forall_mem_singleton.mpr foreign⟩
  cases course with
  | skipped => nofun
  | first other => exact List.forall_mem_singleton.mpr other
  | lone other => exact List.forall_mem_singleton.mpr other
  | second other _ _ spare => exact pair other spare
  | lost other _ _ spare => exact pair other spare

theorem apart (course : Course engine own maximum result targets contacts) :
    (targets.map (·.id)).Nodup := by
  have pair {target second : PeerRecord} (spare : Spare engine target.id second) :
      [target.id, second.id].Nodup := by
    obtain ⟨_, _, _, apart, _⟩ := spare
    exact List.nodup_cons.mpr ⟨mt List.mem_singleton.mp apart.symm, List.nodup_singleton _⟩
  cases course with
  | skipped => exact List.nodup_nil
  | first => exact List.nodup_singleton _
  | lone => exact List.nodup_singleton _
  | second _ _ _ spare => exact pair spare
  | lost _ _ _ spare => exact pair spare

theorem again (course : Course engine own maximum result targets contacts) :
    ∀ target ∈ targets.head?, ∀ contact ∈ contacts.head?, targets.length = 2 ↔
      (∀ reply, ¬ contact.Brings engine maximum target reply) ∧
        engine.settings.gossipRetry ∧ ∃ record, Spare engine target.id record := by
  cases course with
  | skipped => nofun
  | first _ answered =>
      rintro _ ⟨⟩ _ ⟨⟩
      exact ⟨nofun, fun ⟨nothing, _⟩ => absurd answered.brings (nothing _)⟩
  | lone _ _ nobody =>
      rintro _ ⟨⟩ _ ⟨⟩
      exact ⟨nofun, fun ⟨_, somebody⟩ => absurd somebody nobody⟩
  | second _ failed retries spare =>
      rintro _ ⟨⟩ _ ⟨⟩
      exact ⟨fun _ => ⟨failed.nothing, gossipRetry_of_retries retries, _, spare⟩, fun _ => rfl⟩
  | lost _ failed retries spare =>
      rintro _ ⟨⟩ _ ⟨⟩
      exact ⟨fun _ => ⟨failed.nothing, gossipRetry_of_retries retries, _, spare⟩, fun _ => rfl⟩

theorem spare (course : Course engine own maximum result targets contacts) :
    ∀ target second, targets = [target, second] → Spare engine target.id second := by
  cases course with
  | skipped => nofun
  | first => nofun
  | lone => nofun
  | second _ _ _ spare =>
      rintro _ _ ⟨⟩
      exact spare
  | lost _ _ _ spare =>
      rintro _ _ ⟨⟩
      exact spare

theorem time (course : Course engine own maximum result targets contacts) :
    (contacts.map (·.patience.nanos)).sum ≤ engine.settings.patience.nanos := by
  have one {target : PeerRecord} {contact : Contact} (made : contact.Made engine target) :
      ([contact].map (·.patience.nanos)).sum ≤ engine.settings.patience.nanos := by
    rw [List.map_singleton, List.sum_singleton, made.patience]
    exact patience_le engine
  have two {target second : PeerRecord} {early late : Contact} (retries : engine.retries)
      (first : early.Made engine target) (last : late.Made engine second) :
      ([early, late].map (·.patience.nanos)).sum ≤ engine.settings.patience.nanos := by
    rw [List.map_cons, List.map_singleton, List.sum_cons, List.sum_singleton, first.patience,
      last.patience]
    exact patience_twice retries
  cases course with
  | skipped => exact Nat.zero_le _
  | first _ answered => exact one answered.toMade
  | lone _ failed => exact one failed.toMade
  | second _ failed retries _ answered => exact two retries failed.toMade answered.toMade
  | lost _ failed retries _ again => exact two retries failed.toMade again.toMade

theorem skipped_iff (course : Course engine own maximum result targets contacts) :
    result = .ok .skipped ↔ contacts = [] := by
  cases course with
  | skipped => exact ⟨fun _ => rfl, fun _ => rfl⟩
  | first => exact ⟨nofun, nofun⟩
  | lone => exact ⟨nofun, nofun⟩
  | second => exact ⟨nofun, nofun⟩
  | lost => exact ⟨nofun, nofun⟩

theorem exchanged {peer : PeerId} {received : Nat} {viaFallback : Bool} (course : Course engine own
      maximum (.ok (.exchanged peer received viaFallback)) targets contacts) :
    (viaFallback ↔ contacts.length = 2) ∧ ∃ target ∈ targets.getLast?,
      ∃ contact ∈ contacts.getLast?, target.id = peer ∧
        ∃ reply, contact.Brings engine maximum target reply ∧ reply.sender.id = peer ∧
          reply.entries.length = received := by
  have told {target : PeerRecord} {contact : Contact} {reply : Message}
      (brings : contact.Brings engine maximum target reply) : ∃ other,
        contact.Brings engine maximum target other ∧ other.sender.id = target.id ∧
          other.entries.length = reply.entries.length :=
    ⟨reply, brings, sender_of_objection? brings.2, rfl⟩
  cases course with
  | first _ answered => exact ⟨⟨nofun, nofun⟩, _, rfl, _, rfl, rfl, told answered.brings⟩
  | second _ _ _ _ answered =>
      exact ⟨⟨fun _ => rfl, fun _ => rfl⟩, _, rfl, _, rfl, rfl, told answered.brings⟩

theorem failed {failure : Failure}
    (course : Course engine own maximum (.error failure) targets contacts) :
    ∃ target ∈ targets.getLast?, ∃ contact ∈ contacts.getLast?,
      ∀ reply, ¬ contact.Brings engine maximum target reply := by
  cases course with
  | lone _ failed => exact ⟨_, rfl, _, rfl, failed.nothing⟩
  | lost _ _ _ _ again => exact ⟨_, rfl, _, rfl, again.nothing⟩

end Course

/-- What a round keeps to. The peers that it turns to and the connections that it makes are in their
order. -/
structure Disciplined (engine : Engine) (own : PeerId) (maximum : Nat)
    (result : Except Failure Round) (targets : List PeerRecord) (contacts : List Contact) :
    Prop where
  /-- An attempt goes to the address of its peer and has a time limit of its own. -/
  made : List.Forall₂ (Contact.Made engine) targets contacts
  /-- Whom an attempt was for is reported when it has failed, and is told in the end otherwise. -/
  named : List.Forall₂ (fun target contact => contact.blamed = some target.id ∨
    ∃ received viaFallback, result = .ok (.exchanged target.id received viaFallback))
    targets contacts
  few : targets.length ≤ 2
  foreign : ∀ target ∈ targets, target.id ≠ own
  apart : (targets.map (·.id)).Nodup
  /-- There is a second attempt just if the first one has brought no reply, second ones are wanted
  and there is a peer for it. -/
  again : ∀ target ∈ targets.head?, ∀ contact ∈ contacts.head?, targets.length = 2 ↔
    (∀ reply, ¬ contact.Brings engine maximum target reply) ∧
      engine.settings.gossipRetry ∧ ∃ record, Spare engine target.id record
  /-- It goes to such a peer. -/
  spare : ∀ target second, targets = [target, second] → Spare engine target.id second
  /-- Together the attempts have no more time than a round has. -/
  time : (contacts.map (·.patience.nanos)).sum ≤ engine.settings.patience.nanos
  skipped : result = .ok .skipped ↔ contacts = []
  /-- Whoever is told to have replied is the peer of the last attempt, and said so itself. -/
  exchanged : ∀ peer received viaFallback, result = .ok (.exchanged peer received viaFallback) →
    (viaFallback ↔ contacts.length = 2) ∧ ∃ target ∈ targets.getLast?,
      ∃ contact ∈ contacts.getLast?, target.id = peer ∧
        ∃ reply, contact.Brings engine maximum target reply ∧ reply.sender.id = peer ∧
          reply.entries.length = received
  /-- A round fails only if its last attempt brought no reply. -/
  failed : ∀ failure, result = .error failure → ∃ target ∈ targets.getLast?,
    ∃ contact ∈ contacts.getLast?, ∀ reply, ¬ contact.Brings engine maximum target reply

theorem Course.disciplined (course : Course engine own maximum result targets contacts)
    (owner : engine.owner = own) : Disciplined engine own maximum result targets contacts where
  made := course.made
  named := course.named
  few := course.few
  foreign := course.foreign owner
  apart := course.apart
  again := course.again
  spare := course.spare
  time := course.time
  skipped := course.skipped_iff
  exchanged := by
    rintro peer received viaFallback rfl
    exact course.exchanged
  failed := by
    rintro failure rfl
    exact course.failed

/-- A round comes to its end, however the network answers and whatever is drawn, and it turns to a
second peer just if it has to and can. -/
theorem round_disciplined {algorithm : Algorithm} {node : Node} {latest : Instant}
    (runs : node.running? algorithm = some engine) (owner : engine.owner = node.record.id) :
    (∃ result after,
      (watched algorithm).Runs (round algorithm).run ⟨node, latest, []⟩ result after) ∧
      ∀ result after,
        (watched algorithm).Runs (round algorithm).run ⟨node, latest, []⟩ result after →
          ∃ targets, Disciplined engine node.record.id node.settings.maxMessageBytes.toNat result
            targets after.contacts.reverse := by
  refine ⟨exists_runs exists_answer _, fun result after run => ?_⟩
  obtain ⟨targets, course⟩ := (keeps_round runs).ends run
  exact ⟨targets, course.disciplined owner⟩

end Discipline

section Answered

open Round (acquainted isolated)

/-- What the second peer replies. -/
def lateReply : Message :=
  { sender := .numbered 2
    receiver := .numbered 0
    entries := []
    isRequest := false
    algorithm := Algorithm.arrg.name }

/-- The first peer cannot be reached, and any other one replies. -/
def respond : (request : Request) → Watch → request.Reply
  | .moment, _ => ⟨0, 0⟩
  | .connect .., now => if now.contacts.isEmpty then .expired else .opened ⟨0⟩
  | .read _ count _, now =>
    let heard := (now.contacts.headD default).heard
    let rest := (Wire.frame Layout.message lateReply).drop heard.length
    if count ≤ rest.length then .bytes (rest.take count) else .ended
  | .write .., _ => .written
  | .pause .., _ => .elapsed
  | .launch _, _ => ⟨0⟩
  | .finish _, _ | .close _, _ | .raise _, _ | .join _, _ | .report _, _ => ()

theorem whole_respond (request : Request) (now : Watch) : Whole request (respond request now) := by
  cases request with
  | read stream count deadline =>
      rw [respond]
      split
      · next enough => exact List.length_take_of_le enough
      · exact trivial
  | _ => exact trivial

/-- A round that gets its reply from the second peer. -/
def answeredLate : Except Failure Round × Watch :=
  (watched .arrg).follow (fun request now =>
    (respond request now, noting request (respond request now) now)) (round .arrg).run
    ⟨isolated, default, []⟩

theorem runs_answeredLate : (watched .arrg).Runs (round .arrg).run ⟨isolated, default, []⟩
    answeredLate.1 answeredLate.2 :=
  have answers (request : Request) (now : Watch) : (watched .arrg).Answers request now
      (respond request now) (noting request (respond request now) now) :=
    ⟨whole_respond request now, now.node, .refl now.node, rfl⟩
  runs_follow answers _ _

theorem round_disciplined_late :
    isolated.running? .arrg = some acquainted ∧ acquainted.owner = isolated.record.id ∧
      answeredLate.1 = .ok (.exchanged (.ofNat 2) 0 true) ∧
      ∃ targets, Disciplined acquainted isolated.record.id
        isolated.settings.maxMessageBytes.toNat answeredLate.1 targets
        answeredLate.2.contacts.reverse := by
  refine ⟨rfl, rfl, by decide +kernel, ?_⟩
  exact (round_disciplined rfl rfl).2 _ _ runs_answeredLate

end Answered

end Overlay.Node.Attempts
