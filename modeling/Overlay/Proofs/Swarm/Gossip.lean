import Overlay.Proofs.Node.Inbound
import Overlay.Proofs.Swarm.Engines

/-!
Rounds of gossip in a swarm, what goes before them, and the answers to them.
-/

set_option autoImplicit false

namespace Overlay.Swarm

open Attempt Chance Node Surroundings

variable {timing : Timing} {now : View} {chronicle : Chronicle} {link peer : Link}

/-- Ends of streams that carry neither gossip nor answers to questions for records. -/
theorem carries_other (other : peer.tag ≠ .gossip) (caller : peer.tag = .nodeInfo →
    peer.isCallee = false) : Carries timing chronicle peer := by
  refine Or.inr ?_
  cases tag : peer.tag with
  | gossip => exact absurd tag other
  | vivaldi => trivial
  | nodeInfo =>
      rw [caller tag]
      trivial

theorem carries_message {message : Message} (tag : peer.tag = .gossip)
    (truthful : Truthful timing chronicle message) (fits : Wire.Fits Wire.Layout.message message)
    (sent : peer.sent = Wire.frame Wire.Layout.message message) :
    Carries timing chronicle peer := by
  refine Or.inr ?_
  rw [tag]
  exact ⟨message, truthful, fits, sent⟩

theorem carries_record {record : PeerRecord} (tag : peer.tag = .nodeInfo)
    (callee : peer.isCallee = true) (answered : Answered timing chronicle peer record)
    (fits : Wire.Fits Wire.Layout.peerRecord record)
    (sent : peer.sent = Wire.frame Wire.Layout.peerRecord record) :
    Carries timing chronicle peer := by
  refine Or.inr ?_
  rw [tag, callee]
  exact ⟨record, answered, fits, sent⟩

/-- Whatever can be read from a stream of gossip is true. -/
theorem truthful_of_isFrame {message : Message} {maximum : Nat}
    (carries : Carries timing chronicle peer) (tag : peer.tag = .gossip)
    (complete : Wire.IsFrame Wire.Layout.message maximum peer.sent message) :
    Truthful timing chronicle message := by
  rcases carries with empty | content
  · rw [empty] at complete
    exact absurd complete Wire.not_isFrame_nil
  · simp only [tag] at content
    obtain ⟨original, truthful, fits, sent⟩ := content
    have front : peer.sent <+: Wire.frame Wire.Layout.message original := sent ▸ List.prefix_refl _
    rw [Wire.eq_of_isFrame Wire.Layout.message_faithful fits front complete]
    exact truthful.unscoped

/-- Whatever record can be read as an answer is the one of a peer that has spoken. -/
theorem answered_of_isFrame {record : PeerRecord} {maximum : Nat}
    (carries : Carries timing chronicle peer) (tag : peer.tag = .nodeInfo)
    (callee : peer.isCallee = true)
    (complete : Wire.IsFrame Wire.Layout.peerRecord maximum peer.sent record) :
    Answered timing chronicle peer record := by
  rcases carries with empty | content
  · rw [empty] at complete
    exact absurd complete Wire.not_isFrame_nil
  · simp only [tag, callee] at content
    obtain ⟨original, answered, fits, sent⟩ := content
    have front : peer.sent <+: Wire.frame Wire.Layout.peerRecord original :=
      sent ▸ List.prefix_refl _
    rw [Wire.eq_of_isFrame Wire.Layout.peerRecord_faithful fits front complete]
    exact ⟨answered.genuine.unscoped, answered.stamped⟩

section Questions

theorem keeps_requestRecord {address : SocketAddress} {patience : Duration} {maximum : Nat}
    {post : Except Failure PeerRecord → View → Prop} (sound : ViewSound timing now)
    (told : ∀ record after, Reaches timing now after → Recent timing after now.node.clock record →
      post (.ok record) after)
    (failed : ∀ failure after, Reaches timing now after → post (.error failure) after) :
    (world timing).Keeps (requestRecord address patience maximum).run post now := by
  simp only [requestRecord, keeps_run_bind]
  refine keeps_limit fun limit => keeps_connected sound ?_ failed
  intro link opening reached held tag caller opened sent got
  change Reaches timing now opening at reached
  simp only [keeps_run_bind]
  refine keeps_send reached.sound held rfl ?_ ?_
  · intro deadline
    refine carries_other ?_ fun _ => caller
    change link.tag ≠ .gossip
    rw [tag]
    decide
  · intro result asking further written
    have asked := reached.trans further
    cases result with
    | error failure => exact failed failure asking asked
    | ok _ =>
        refine keeps_receiveFrame asked.sound written rfl got ?_ ?_
        · intro record after peer maximum further faces carries complete inTime _
          have whole := asked.trans further
          have answered := answered_of_isFrame carries (faces.tag.trans tag)
            (by rw [faces.isCallee]; exact congrArg not caller) complete
          refine told record after whole ⟨answered.genuine, fun lifetime shared => ?_⟩
          obtain ⟨spoken, said, stamped, since⟩ := answered.stamped lifetime shared
          have before := reached.clock lifetime shared
          rw [← opened] at before
          have start : now.node.clock ≤ peer.opened := faces.opened ▸ before
          refine ⟨spoken, said,
            Timestamp.le_trans start (Timestamp.le_trans since stamped), fun seeding => ?_⟩
          subst shared
          exact Timestamp.lt_of_lt_of_le (inTime tag seeding)
            (Timestamp.plus_le_plus stamped lifetime)
        · intro failure after further
          exact failed failure after (asked.trans further)

theorem keeps_bootstrapPeer {post : Option PeerRecord → View → Prop} (sound : ViewSound timing now)
    (holds : ∀ found after, Reaches timing now after →
      (∀ record, found = some record → Recent timing after now.node.clock record) →
      post found after) :
    (world timing).Keeps bootstrapPeer post now := by
  simp only [bootstrapPeer, keeps_bind, keeps_get]
  have unheard := holds none now (.refl sound) fun record found =>
    absurd found.symm (Option.some_ne_none record)
  rcases sound.node.bootstrap with nowhere | ⟨addresses, somewhere⟩
  · simp only [world_look, nowhere]
    exact unheard
  · simp only [world_look, somewhere]
    cases addresses with
    | nil => exact unheard
    | cons first others =>
        simp only [keeps_bind]
        apply keeps_draw sound
        intro dice
        have drawn := (evolves_dice sound dice).reaches_same sound rfl
        rw [keeps_bind]
        refine keeps_reporting (keeps_requestRecord drawn.sound ?_ ?_)
        · intro record after reached recent
          apply holds _ after (drawn.trans reached)
          intro other same
          cases same
          exact recent
        · intro failure after reached
          exact holds none after (drawn.trans reached) fun record found =>
            absurd found.symm (Option.some_ne_none record)

theorem keeps_seedCache {algorithm : Algorithm} {post : Unit → View → Prop}
    (sound : ViewSound timing now) (seeding : now.isSeeding)
    (holds : ∀ after, Reaches timing now after → post () after) :
    (world timing).Keeps (seedCache algorithm) post now := by
  simp only [seedCache, keeps_bind, keeps_get]
  refine keeps_ite (fun _ => ?_) fun _ => holds now (.refl sound)
  · rw [keeps_bind]
    apply keeps_bootstrapPeer sound
    intro found after reached recent
    cases found with
    | none => exact holds after reached
    | some record =>
        simp only [keeps_bind, keeps_get]
        refine keeps_ite (fun _ => ?_) fun _ => holds after reached
        · rw [keeps_bind]
          refine keeps_report (keeps_onEngine (fun _ => True) reached.sound ?_ ?_)
          · refine Ensures.bind (seed_succeeds (reached.sound.node.engine algorithm)
              (reached.isSeeding.trans seeding) (recent record rfl)) fun engine succeeds => ?_
            exact (ensures_pure _ _).mpr ⟨succeeds, trivial⟩
          · intro _ later lingers _
            exact holds later (reached.trans lingers.toReaches)

/-- A service tells the record of its node. -/
theorem keeps_serveRecord {stream : StreamId} {outer : Option Limit}
    {post : Except Failure Unit → View → Prop} (sound : ViewSound timing now)
    (held : now.link = some link) (named : link.name = stream) (tag : link.tag = .nodeInfo)
    (callee : link.isCallee = true) (sent : link.sent = [])
    (holds : ∀ result after, Reaches timing now after → post result after) :
    (world timing).Keeps (serveRecord stream outer).run post now := by
  simp only [serveRecord, keeps_run_bind, keeps_run_get]
  refine keeps_limit fun limit => keeps_receiveByte sound held named ?_ fun failure => holds _
  intro byte between got reached kept
  refine keeps_run_ite (fun _ => ?_) fun _ => ?_
  · simp only [keeps_run_bind, keeps_run_perform]
    exact keeps_report (holds _ between reached)
  · simp only [keeps_run_bind, keeps_run_get]
    refine keeps_sendFrame reached.sound kept named sent ?_ ?_
    · intro deadline fits
      have speaks : link.isCallee ∧ link.tag ≠ .vivaldi := ⟨callee, by rw [tag]; decide⟩
      rw [issue_write kept named, if_pos speaks]
      refine carries_record tag callee ⟨?_, fun lifetime shared => ?_⟩ fits rfl
      · exact reached.sound.node.genuine.mono (between.chronicle.speak_grows _ _)
      · obtain ⟨spoken, said, order⟩ :=
          between.chronicle.spoken_speak between.node.record.id between.node.clock
        have opened := reached.sound.opened lifetime shared _ kept
        exact ⟨spoken, said, order, opened⟩
    · intro result after _ _ further _
      exact holds result after (reached.trans further)

end Questions

section Rounds

variable {algorithm : Algorithm}

theorem keeps_talk {target : PeerRecord} {request : Message} {patience : Duration} {maximum : Nat}
    {post : Except Failure Message → View → Prop} (sound : ViewSound timing now)
    (truthful : Truthful timing now.speak.chronicle request)
    (replied : ∀ reply after, Reaches timing now after → Truthful timing after.chronicle reply →
      post (.ok reply) after)
    (failed : ∀ failure after, Reaches timing now after → post (.error failure) after) :
    (world timing).Keeps (talk target request patience maximum).run post now := by
  simp only [talk, keeps_run_bind]
  refine keeps_limit fun limit => keeps_connected sound ?_ failed
  intro link opening speaking held tag caller opened sent got
  change Reaches timing now.speak opening at speaking
  have reached := (speak_reaches sound).trans speaking
  simp only [keeps_run_bind]
  refine keeps_sendFrame reached.sound held rfl sent ?_ ?_
  · intro deadline fits
    have issued := issue_reaches reached.sound
      (.write link.name (Wire.frame Wire.Layout.message request) deadline)
    exact carries_message tag (truthful.mono (speaking.grows.trans issued.grows)) fits rfl
  · intro result asking _ _ further written
    have asked := reached.trans further
    cases result with
    | error failure => exact failed failure asking asked
    | ok _ =>
        refine keeps_receiveFrame asked.sound written rfl got ?_ ?_
        · intro reply after peer bound further faces carries complete _ _
          have told := truthful_of_isFrame carries (faces.tag.trans tag) complete
          exact replied reply after (asked.trans further) told
        · intro failure after further
          exact failed failure after (asked.trans further)

theorem keeps_exchange {target : PeerRecord} {post : Except Failure Nat → View → Prop}
    (sound : ViewSound timing now) (genuine : Genuine now.chronicle target)
    (holds : ∀ result after, Reaches timing now after → post result after) :
    (world timing).Keeps (exchange algorithm target).run post now := by
  simp only [exchange, keeps_run_bind, keeps_run_get, keeps_run_perform]
  apply keeps_draw sound
  intro dice
  have drawn := (evolves_dice sound dice).reaches_same sound rfl
  have kept := sound.node.engine algorithm
  refine keeps_talk drawn.sound (message_truthful sound kept genuine _) ?_ ?_
  · intro reply after reached replied
    cases objected : (now.node.engine algorithm).objection? target reply with
    | some failure =>
        simp only [world_look, objected, keeps_run_throw]
        exact holds _ after (drawn.trans reached)
    | none =>
        simp only [world_look, objected, keeps_run_bind, keeps_run_get, keeps_run_perform]
        refine keeps_onEngine (fun _ => True) reached.sound ?_ ?_
        · refine Ensures.bind (accept_succeeds (reached.sound.node.engine algorithm) replied)
            fun engine succeeds => ?_
          exact (ensures_pure _ _).mpr ⟨succeeds, trivial⟩
        · intro _ later lingers _
          exact holds _ later (drawn.trans (reached.trans lingers.toReaches))
  · intro failure after reached
    exact holds _ after (drawn.trans reached)

/-- Changing one engine in a way that makes no difference to others. -/
theorem keeps_updateEngine {change : Engine → Engine} {post : Unit → View → Prop}
    (sound : ViewSound timing now)
    (succeeds : Succeeds timing now (now.node.engine algorithm)
      (change (now.node.engine algorithm)))
    (holds : ∀ after, Reaches timing now after → post () after) :
    (world timing).Keeps (updateEngine algorithm change) post now := by
  refine keeps_onEngine (fun _ => True) sound ?_ fun _ after lingers _ =>
    holds after lingers.toReaches
  exact (ensures_pure _ _).mpr ⟨succeeds, trivial⟩

theorem keeps_secondTarget {failed : PeerId} {post : Option PeerRecord → View → Prop}
    (sound : ViewSound timing now)
    (holds : ∀ found after, Reaches timing now after →
      (∀ record, found = some record → Genuine after.chronicle record) → post found after) :
    (world timing).Keeps (secondTarget algorithm failed) post now := by
  simp only [secondTarget, keeps_bind, keeps_get]
  have unfound := holds none now (.refl sound) fun record found =>
    absurd found.symm (Option.some_ne_none record)
  refine keeps_ite (fun _ => ?_) fun _ => unfound
  apply keeps_draw sound
  intro dice
  apply holds _ _ ((evolves_dice sound dice).reaches_same sound rfl)
  intro record found
  have member := Engine.fallbackTarget_origin _ failed now.node.dice record found
  exact .of_fallback (sound.node.engine algorithm) member

theorem keeps_retry {target : PeerRecord} {post : Except Failure Round → View → Prop}
    (sound : ViewSound timing now) (genuine : Genuine now.chronicle target)
    (holds : ∀ result after, Reaches timing now after → post result after) :
    (world timing).Keeps (retry algorithm target).run post now := by
  simp only [retry, keeps_run_bind, keeps_run_perform]
  refine keeps_updateEngine sound (succeeds_tally (sound.node.engine algorithm) rfl) ?_
  intro begun reached
  apply keeps_exchange reached.sound (genuine.mono reached.grows)
  intro result after further
  have whole := reached.trans further
  cases result with
  | ok received => exact holds _ after whole
  | error failure =>
      simp only [keeps_run_bind, keeps_run_perform]
      refine keeps_updateEngine further.sound
        (succeeds_tally (further.sound.node.engine algorithm) rfl) ?_
      intro last counted
      exact keeps_report (holds _ last (whole.trans counted))

theorem keeps_attempts {target : PeerRecord} {post : Except Failure Round → View → Prop}
    (sound : ViewSound timing now) (genuine : Genuine now.chronicle target)
    (holds : ∀ result after, Reaches timing now after → post result after) :
    (world timing).Keeps (attempts algorithm target).run post now := by
  simp only [attempts, keeps_run_bind, keeps_run_perform]
  apply keeps_exchange sound genuine
  intro result middle reached
  cases result with
  | ok received => exact holds _ middle reached
  | error failure =>
      simp only [keeps_run_bind, keeps_run_perform]
      refine keeps_report (keeps_secondTarget reached.sound fun found after further second => ?_)
      have whole := reached.trans further
      cases found with
      | some record =>
          exact keeps_retry further.sound (second record rfl) fun result last final =>
            holds result last (whole.trans final)
      | none =>
          simp only [keeps_run_bind, keeps_run_perform]
          refine keeps_updateEngine further.sound
            (succeeds_tally (further.sound.node.engine algorithm) rfl) ?_
          intro last counted
          exact holds _ last (whole.trans counted)

theorem keeps_round {post : Except Failure Round → View → Prop} (sound : ViewSound timing now)
    (seeding : now.isSeeding)
    (holds : ∀ result after, Reaches timing now after → post result after) :
    (world timing).Keeps (Node.round algorithm).run post now := by
  simp only [Node.round, keeps_run_bind, keeps_run_perform]
  apply keeps_seedCache sound seeding
  intro seeded reached
  refine keeps_onEngine (fun found => ∀ record, found = some record →
    Genuine seeded.chronicle record) reached.sound ?_ ?_
  · have kept := succeeds_older (reached.sound.node.engine algorithm)
    refine Ensures.bind (Engine.target_origin _) fun found origin => ?_
    refine (ensures_pure _ _).mpr ⟨kept, fun record chosen => ?_⟩
    obtain ⟨copy, held, rfl⟩ := origin record chosen
    exact (kept.sound.cache copy held).genuine
  · intro found middle lingers genuine
    have whole := reached.trans lingers.toReaches
    cases found with
    | none =>
        simp only [keeps_run_bind, keeps_run_perform]
        exact keeps_report (holds _ middle whole)
    | some target =>
        simp only [keeps_run_bind, keeps_run_get]
        refine keeps_run_ite (fun _ => holds _ middle whole) fun _ => ?_
        refine keeps_attempts lingers.sound ((genuine target rfl).mono lingers.grows) ?_
        intro result after further
        exact holds result after (whole.trans further)

theorem keeps_reportedRound {post : Unit → View → Prop} (sound : ViewSound timing now)
    (seeding : now.isSeeding) (holds : ∀ after, Reaches timing now after → post () after) :
    (world timing).Keeps (reportedRound algorithm) post now := by
  simp only [reportedRound, keeps_bind]
  apply keeps_round sound seeding
  intro result after reached
  have ended := holds after reached
  cases result with
  | ok round =>
      cases round with
      | skipped => exact ended
      | exchanged peer received viaFallback =>
          simp only [keeps_bind, keeps_get]
          exact keeps_report ended
  | error failure => exact keeps_report ended

/-- Answering leaves the node as it was but for the engine, and the answer is true once it has been
noted that the node spoke. -/
theorem keeps_answer {request : Message} {post : Except Failure Message → View → Prop}
    (sound : ViewSound timing now) (truthful : Truthful timing now.chronicle request)
    (answered : ∀ reply after, Lingers timing now after →
      Truthful timing now.speak.chronicle reply → post (.ok reply) after)
    (refused : ∀ failure, post (.error failure) now) :
    (world timing).Keeps (answer request).run post now := by
  refine Inbound.keeps_run_answer (· = now) rfl (fun _ _ => keeps_report rfl) ?_ fun _ => refused
  rintro algorithm _ _ rfl
  exact keeps_onEngine (Truthful timing _) sound
    (answer_succeeds sound (sound.node.engine algorithm) truthful) answered

/-- A service answers a request. -/
theorem keeps_serveGossip {stream : StreamId} {outer : Option Limit}
    {post : Except Failure Unit → View → Prop} (sound : ViewSound timing now)
    (held : now.link = some link) (named : link.name = stream) (tag : link.tag = .gossip)
    (callee : link.isCallee = true) (sent : link.sent = []) (got : link.got = [])
    (holds : ∀ result after, Reaches timing now after → post result after) :
    (world timing).Keeps (serveGossip stream outer).run post now := by
  simp only [serveGossip, keeps_run_bind, keeps_run_get]
  refine keeps_limit fun reading => keeps_receiveFrame sound held named got ?_ ?_
  · intro request asked peer bound reached faces carries complete _ kept
    obtain ⟨got, kept⟩ := kept
    have truthful := truthful_of_isFrame carries (faces.tag.trans tag) complete
    refine keeps_reporting (keeps_answer reached.sound truthful ?_ ?_)
    · intro reply answering lingers told
      have whole := reached.trans lingers.toReaches
      have held := lingers.link.trans kept
      refine keeps_limit fun writing => keeps_sendFrame lingers.sound held named sent ?_ ?_
      · intro deadline fits
        have speaks : link.isCallee ∧ link.tag ≠ .vivaldi := ⟨callee, by rw [tag]; decide⟩
        rw [issue_write held named, if_pos speaks]
        refine carries_message tag ?_ fits rfl
        change Truthful timing
          (answering.chronicle.speak answering.node.record.id answering.node.clock) reply
        rw [lingers.chronicle, lingers.record, lingers.now]
        exact told
      · intro result after _ _ further _
        exact holds result after (whole.trans further)
    · intro failure
      exact holds _ asked reached
  · intro failure after reached
    exact holds _ after reached

end Rounds

end Overlay.Swarm
