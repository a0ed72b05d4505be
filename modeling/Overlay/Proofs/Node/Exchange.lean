import Overlay.Proofs.Engine.Exchange
import Overlay.Proofs.Node.Inbound
import Overlay.Proofs.Node.Round
import Overlay.Proofs.Node.Seat

/-!
A round of gossip and the node that answers it, over a connection that may break at any moment.

Nothing is known of the other end but what was heard from it. Of the node that asks, a round that
went well tells which request it has said and which reply it has heard (`keeps_round`); of the node
that serves, whatever it has said is a part of the reply to what it has heard (`keeps_serving`).
What one end has heard the other one has said, so both speak of the same two messages, and the two
nodes end up with joined views (`exchange_joins`).
-/

set_option autoImplicit false

namespace Overlay.Node.Exchange

open Attempt Chance Conversation PeerCache Surroundings
open Inbound (Asks IsRequest answered)
open Wire (Fits IsFrame Layout frame)

/-- An end of which nothing is known, as it sees itself. -/
abbrev either : Surroundings Node Desk := seat false .free

theorem look_either (now : Desk) : either.look now = now.node := rfl

variable {α : Type} {stream : StreamId} {limit : Limit} {algorithm : Algorithm} {now : Desk}

section Callee

theorem keeps_onEngine {change : Engine → Chance (α × Engine)} {post : α → Desk → Prop}
    {told : (α × Engine) × Dice} (result : change (now.node.engine algorithm) now.node.dice = told)
    (holds : post told.1.1
      { now with node := { now.node with dice := told.2 }.withEngine told.1.2 }) :
    either.Keeps (onEngine algorithm change) post now := by
  subst result
  exact ⟨trivial, trivial, holds⟩

theorem keeps_reporting {event : Failure → Event} {attempt : Attempt Node α}
    {post : Except Failure α → Desk → Prop}
    (keeps : either.Keeps attempt.run (fun result after => match result with
      | .ok value => post (.ok value) after
      | .error failure => ∀ middle, Later after middle → post (.error failure) middle) now) :
    either.Keeps (reporting event attempt).run post now := by
  refine keeps_run_reporting.mpr (keeps.mono fun result after holds => ?_)
  cases result with
  | ok value => exact holds
  | error failure => exact keeps_report trivial fun middle waited => holds middle waited.toLater

theorem keeps_answer {request : Message} {post : Except Failure Message → Desk → Prop}
    (accepted : ∀ algorithm, Asks now.node request algorithm → ∀ after, after.mine = now.mine →
      Passes (answered now.node algorithm request).2 after.node →
        post (.ok (answered now.node algorithm request).1) after)
    (refused : ∀ failure, post (.error failure) now) :
    either.Keeps (answer request).run post now := by
  refine Inbound.keeps_run_answer (Later now) (.refl now) (fun _ _ => ?_) ?_ fun _ => refused
  · exact keeps_report trivial fun _ waited => waited.toLater
  · intro algorithm asks middle waited
    refine keeps_onEngine rfl ?_
    obtain ⟨time, onward, same⟩ := waited.node
    have looked : middle.node.engine algorithm = now.node.engine algorithm := by
      rw [same]
      exact engine_of_running time asks.2.2
    have dice : middle.node.dice = now.node.dice := by rw [same]
    rw [look_either, looked, dice]
    refine accepted algorithm asks _ waited.mine ⟨time, onward, ?_⟩
    rw [same]
    rfl

/-- What a node has done that served a connection: it has read a request, has answered it with an
engine, and has said the reply or a part of it. Or else it has said nothing. -/
def Served (callee : Node) (after : Desk) : Prop :=
  after.mine.said = [] ∨ ∃ request algorithm clock, callee.clock ≤ clock ∧
    IsRequest callee after.mine.heard request algorithm ∧
    let answer := answered { callee with clock } algorithm request
    Fits Layout.message answer.1 ∧ after.mine.said <+: frame Layout.message answer.1 ∧
      Passes answer.2 after.node

theorem Served.later {callee : Node} {before after : Desk} (served : Served callee before)
    (later : Later before after) : Served callee after := by
  rw [Served, later.mine]
  refine served.imp_right ?_
  rintro ⟨request, algorithm, clock, since, asked, fits, said, passes⟩
  exact ⟨request, algorithm, clock, since, asked, fits, said, passes.trans later.node⟩

/-- A reply is said whole, or a part of it is. -/
theorem keeps_reply {message : Message} {bytes : Wire.Bytes} {maximum : Nat}
    {post : Except Failure Unit → Desk → Prop} (heard : now.mine = ⟨bytes, [], false⟩)
    (silent : ∀ result after, after.mine = ⟨bytes, [], false⟩ → post result after)
    (said : ∀ result after part, Passes now.node after.node → after.mine = ⟨bytes, part, false⟩ →
      Fits Layout.message message → part <+: frame Layout.message message → post result after) :
    either.Keeps (sendFrame Layout.message stream message maximum limit).run post now := by
  have log {sent : Desk} (later : Later now sent) (part : Wire.Bytes) :
      (sent.utters part).mine = ⟨bytes, part, false⟩ := by
    change sent.mine.utters part = _
    rw [later.mine, heard]
    rfl
  refine keeps_sendFrame (fun sent later fits => ?_) fun failure part sent later fits early => ?_
  · exact said _ _ _ later.node (log later _) fits List.prefix_rfl
  · rcases fits with fits | rfl
    · exact said _ _ part later.node (log later part) fits early
    · exact silent _ _ (log later [])

theorem keeps_serveGossip {post : Except Failure Unit → Desk → Prop} (fresh : now.mine = .fresh)
    (served : ∀ result after, Served now.node after → post result after) :
    either.Keeps (serveGossip stream none).run post now := by
  simp only [serveGossip, keeps_run_bind, keeps_run_get]
  refine keeps_limit trivial fun reading first waited => ?_
  have heard {middle : Desk} (later : Later first middle) (bytes : Wire.Bytes) :
      (middle.hears bytes).mine = ⟨bytes, [], false⟩ := by
    change middle.mine.hears bytes = _
    rw [later.mine, waited.mine, fresh]
    rfl
  have silent {bytes : Wire.Bytes} (result : Except Failure Unit) (after : Desk)
      (log : after.mine = ⟨bytes, [], false⟩) : post result after := by
    refine served result after (Or.inl ?_)
    rw [log]
  refine keeps_receiveFrame (fun request bytes arrived later complete => ?_)
    fun failure bytes middle later => silent _ _ (heard later bytes)
  have log := heard later bytes
  obtain ⟨node, mine, theirs⟩ := arrived
  obtain ⟨clock, since, same⟩ := (waited.toLater.trans later).node
  obtain rfl : node = { now.node with clock } := same
  refine keeps_reporting (keeps_answer (fun algorithm asks replied mine passes => ?_)
    fun failure middle further => silent _ _ (further.mine.trans log))
  refine keeps_limit trivial fun writing ready further => ?_
  have quiet := further.mine.trans (mine.trans log)
  refine keeps_reply quiet silent fun result after part onward log fits early => ?_
  refine served result after (Or.inr ?_)
  rw [log]
  exact ⟨request, algorithm, clock, since, ⟨complete, asks⟩, fits, early,
    (passes.trans further.node).trans onward⟩

theorem keeps_serving (fresh : now.mine = .fresh) :
    either.Keeps (closing stream (dispatch .gossip stream none)).run
      (fun _ after => Served now.node after) now := by
  refine keeps_closing (keeps_serveGossip fresh fun _ after served => ⟨trivial, fun _ waited => ?_⟩)
  have later := served.later waited.toLater
  exact later

end Callee

section Caller

theorem keeps_talk {target : PeerRecord} {request : Message} {patience : Duration} {maximum : Nat}
    {post : Except Failure Message → Desk → Prop} (fresh : now.mine = .fresh)
    (replied : ∀ reply after, Passes now.node after.node → Fits Layout.message request →
      after.mine.said = frame Layout.message request →
      IsFrame Layout.message maximum after.mine.heard reply → post (.ok reply) after)
    (failed : ∀ failure after, post (.error failure) after) :
    either.Keeps (talk target request patience maximum).run post now := by
  simp only [talk, keeps_run_bind]
  refine keeps_limit trivial fun limit ready waited => ?_
  refine keeps_connected trivial (fun stream opened connected => keeps_closing ?_)
    fun _ failure middle _ => failed failure middle
  simp only [keeps_run_bind]
  refine keeps_sendFrame (fun sent later fits => ?_) fun failure part middle _ _ _ =>
    ⟨trivial, fun closed _ => failed failure _⟩
  have onward := (waited.toLater.trans connected.toLater).trans later
  have log : (sent.utters (frame Layout.message request)).mine =
      ⟨[], frame Layout.message request, false⟩ := by
    change sent.mine.utters _ = _
    rw [onward.mine, fresh]
    rfl
  refine keeps_receiveFrame (fun reply bytes heard further complete => ?_)
    fun failure bytes middle _ => ⟨trivial, fun closed _ => failed failure _⟩
  refine ⟨trivial, fun closed last => ?_⟩
  have mine : closed.mine = ⟨bytes, frame Layout.message request, false⟩ := by
    rw [last.mine]
    change heard.mine.hears bytes = _
    rw [further.mine, log]
    rfl
  refine replied reply _ ?_ fits ?_ ?_
  · exact (onward.node.trans further.node).trans last.node
  · change closed.mine.said = _
    rw [mine]
  · change IsFrame Layout.message maximum closed.mine.heard reply
    rw [mine]
    exact complete

/-- What an exchange that went well has said, heard and done at the node that began it. -/
structure Won (caller : Node) (algorithm : Algorithm) (engine : Engine) (target : PeerRecord)
    (request reply : Message) (clock : Timestamp) (dice : Dice) (after : Desk) : Prop where
  addresses : engine.Addresses caller.record caller.clock target true request
  fits : Fits Layout.message request
  said : after.mine.said = frame Layout.message request
  heard : IsFrame Layout.message caller.settings.maxMessageBytes.toNat after.mine.heard reply
  accepted : engine.objection? target reply = none
  since : caller.clock ≤ clock
  past : clock ≤ after.node.clock
  runs : after.node.running? algorithm = some (engine.accept clock reply dice).1

theorem keeps_exchange {engine : Engine} {target : PeerRecord} (fresh : now.mine = .fresh)
    (runs : now.node.running? algorithm = some engine) :
    either.Keeps (exchange algorithm target).run (fun result after => ∀ received,
      result = .ok received → ∃ request reply clock dice, received = reply.entries.length ∧
        Won now.node algorithm engine target request reply clock dice after) now := by
  have looked : now.node.engine algorithm = engine := engine_of_running? runs
  simp only [exchange, keeps_run_bind, keeps_run_get, keeps_run_perform]
  refine keeps_draw fun request dice drawn => ?_
  have addresses : engine.Addresses now.node.record now.node.clock target true request := by
    have all := Engine.message_addresses engine now.node.record now.node.clock target true
      now.node.dice
    change (request, dice) = (now.node.engine algorithm).message now.node.record now.node.clock
      target true now.node.dice at drawn
    rw [looked] at drawn
    rwa [← drawn] at all
  refine keeps_talk fresh (fun reply told passes fits said heard => ?_)
    fun failure after received failed => by cases failed
  obtain ⟨clock, since, same⟩ := passes
  simp only [look_either, looked]
  cases objection : engine.objection? target reply with
  | some failure =>
      change ∀ received, Except.error failure = .ok received → _
      intro received failed
      cases failed
  | none =>
      have still : told.node.running? algorithm = some engine := by
        rw [same]
        exact runs
      simp only [keeps_run_bind, keeps_run_get, keeps_run_perform]
      refine keeps_onEngine rfl ?_
      intro count ends
      refine ⟨request, reply, told.node.clock, told.node.dice, (Except.ok.inj ends).symm, addresses,
        fits, said, heard, objection, ?_, UInt64.le_refl _, ?_⟩
      · rw [same]
        exact since
      · rw [engine_of_running? still]
        have named := (engine.accept_origin told.node.clock reply told.node.dice).algorithm
        exact running?_changed _ still named

/-- A round that went well at the first attempt. -/
def Direct (result : Except Failure Round) (peer : PeerId) (received : Nat) : Prop :=
  result = .ok (.exchanged peer received false)

/-- A second attempt is not the first one. -/
theorem keeps_retry {target : PeerRecord} :
    either.Keeps (retry algorithm target).run (fun result _ => ∀ peer received,
      ¬ Direct result peer received) now := by
  simp only [retry, keeps_run_bind, keeps_run_perform]
  refine (keeps_any _).mono fun _ began _ => (keeps_any _).mono fun result after _ => ?_
  cases result with
  | ok received =>
      intro peer count direct
      cases direct
  | error failure =>
      simp only [keeps_run_bind, keeps_run_perform]
      refine (keeps_any _).mono fun _ _ _ => (keeps_any _).mono fun _ _ _ => ?_
      intro peer count direct
      cases direct

theorem keeps_attempts {engine : Engine} {target : PeerRecord} (fresh : now.mine = .fresh)
    (runs : now.node.running? algorithm = some engine) :
    either.Keeps (attempts algorithm target).run (fun result after => ∀ peer received,
      Direct result peer received → target.id = peer ∧ ∃ request reply clock dice,
        received = reply.entries.length ∧
        Won now.node algorithm engine target request reply clock dice after) now := by
  simp only [attempts, keeps_run_bind, keeps_run_perform]
  refine (keeps_exchange fresh runs).mono fun result after won => ?_
  cases result with
  | ok count =>
      intro peer received direct
      cases direct
      exact ⟨rfl, won count rfl⟩
  | error failure =>
      simp only [keeps_run_bind, keeps_run_perform]
      refine (keeps_any _).mono fun _ _ _ => (keeps_any _).mono fun second middle _ => ?_
      cases second with
      | none =>
          simp only [keeps_run_bind, keeps_run_perform]
          refine (keeps_any _).mono fun _ _ _ => ?_
          intro peer received direct
          cases direct
      | some second =>
          exact keeps_retry.mono fun result after other peer received direct =>
            absurd direct (other peer received)

/-- A round of a node that takes in nobody from outside turns to a peer with an engine whose copies
are one round older. -/
theorem keeps_round {engine : Engine} (fresh : now.mine = .fresh)
    (runs : now.node.running? algorithm = some engine) (alone : now.node.bootstrap = .none) :
    either.Keeps (round algorithm).run (fun result after => ∀ peer received,
      Direct result peer received → peer ≠ now.node.record.id ∧
      ∃ target request reply clock dice, target.id = peer ∧ received = reply.entries.length ∧
        Won now.node algorithm engine.older target request reply clock dice after) now := by
  have idle {post : Unit → Desk → Prop} (holds : post () now) :
      either.Keeps (seedCache algorithm) post now := by
    simp only [seedCache, keeps_bind, keeps_get]
    refine keeps_ite (fun configured => ?_) fun _ => holds
    rw [look_either, alone] at configured
    cases configured
  obtain ⟨⟨chosen, dice⟩, drawn⟩ : ∃ drawn, engine.older.target now.node.dice = drawn := ⟨_, rfl⟩
  have turned : (do pure (← (now.node.engine algorithm).older.target,
      (now.node.engine algorithm).older) : Chance (Option PeerRecord × Engine)) now.node.dice =
        ((chosen, engine.older), dice) := by
    rw [engine_of_running? runs]
    change (((engine.older.target now.node.dice).1, engine.older),
      (engine.older.target now.node.dice).2) = _
    rw [drawn]
  have aged : (({ now.node with dice } : Node).withEngine engine.older).running? algorithm =
      some engine.older := running?_changed dice runs rfl
  simp only [round, keeps_run_bind, keeps_run_perform]
  refine idle (keeps_onEngine turned ?_)
  cases chosen with
  | none =>
      simp only [keeps_run_bind, keeps_run_perform]
      refine (keeps_any _).mono fun _ _ _ => ?_
      intro peer received direct
      cases direct
  | some target =>
      simp only [keeps_run_bind, keeps_run_get]
      refine keeps_run_ite (fun _ => ?_) fun other => ?_
      · intro peer received direct
        cases direct
      · have begun := @keeps_attempts algorithm
          { now with node := ({ now.node with dice } : Node).withEngine engine.older }
          engine.older target fresh aged
        refine begun.mono fun result after won peer received direct => ?_
        obtain ⟨same, request, reply, clock, dice, count, won⟩ := won peer received direct
        refine ⟨?_, target, request, reply, clock, dice, same, count, ?_⟩
        · rw [← same]
          exact other
        · exact ⟨won.addresses, won.fits, won.said, won.heard, won.accepted, won.since, won.past,
            won.runs⟩

end Caller

section Joins

/-- All copies that an exchange is about: what the two nodes say of themselves, and what their
engines hold. -/
def involved (caller callee : Node) (asking serving : Engine) : List Entry :=
  asking.fresh caller.record caller.clock :: serving.fresh callee.record callee.clock ::
    (asking.cache.entries ++ serving.cache.entries)

/-- Two nodes that run an engine of the same algorithm, whatever has become of the engines. All
copies that there are outlive the exchange and are of one version, and each cache has room for every
peer but its owner. What the one node holds of the other one is not fresher than what that says of
itself. -/
structure Meeting (algorithm : Algorithm) (caller callee : Node) (asking serving : Engine)
    (finish : Timestamp) : Prop where
  asks : caller.running? algorithm = some asking
  serves : callee.running? algorithm = some serving
  askingReached :
    Engine.Reached (fun _ => True) (fun _ => True) caller.settings caller.record.id asking
  servingReached :
    Engine.Reached (fun _ => True) (fun _ => True) callee.settings callee.record.id serving
  alone : caller.bootstrap = .none
  version : callee.settings.version = caller.settings.version
  lasts : ∀ copy ∈ involved caller callee asking serving,
    finish < copy.expiresAt ∧ copy.record.version = caller.settings.version
  askingRoom : (others caller.record.id (ids (involved caller callee asking serving))).length ≤
    caller.settings.cacheSize.toNat
  servingRoom : (others callee.record.id (ids (involved caller callee asking serving))).length ≤
    callee.settings.cacheSize.toNat
  current : ∀ copy ∈ asking.cache.entries, copy.id = callee.record.id →
    ¬ copy.isNewerThan (serving.fresh callee.record callee.clock)

/-- A copy that was made of another one, and does not expire before it. -/
def Stems (copies : List Entry) (copy : Entry) : Prop :=
  ∃ first ∈ copies, copy.id = first.id ∧ first.expiresAt ≤ copy.expiresAt ∧
    copy.record.version = first.record.version

variable {caller callee : Node} {asking serving : Engine} {finish clock made : Timestamp}

theorem stems_asking {copy : Entry} (aged : copy ∈ asking.older.cache.entries) :
    Stems (involved caller callee asking serving) copy := by
  obtain ⟨first, held, rfl⟩ := List.mem_map.mp aged
  refine ⟨first, ?_, rfl, UInt64.le_refl _, rfl⟩
  exact List.mem_cons_of_mem _ (List.mem_cons_of_mem _ (List.mem_append_left _ held))

theorem stems_serving {copy : Entry} (held : copy ∈ serving.cache.entries) :
    Stems (involved caller callee asking serving) copy := by
  refine ⟨copy, ?_, rfl, UInt64.le_refl _, rfl⟩
  exact List.mem_cons_of_mem _ (List.mem_cons_of_mem _ (List.mem_append_right _ held))

theorem stems_request {request : List Entry} {copy : Entry}
    (told : asking.older.Introduces caller.record caller.clock request) (sent : copy ∈ request) :
    Stems (involved caller callee asking serving) copy := by
  rcases told.held copy sent with rfl | aged
  · exact ⟨_, List.mem_cons_self, rfl, UInt64.le_refl _, rfl⟩
  · exact stems_asking aged

theorem stems_reply {reply : List Entry} {copy : Entry} (since : callee.clock ≤ made)
    (told : serving.Introduces callee.record made reply) (sent : copy ∈ reply) :
    Stems (involved caller callee asking serving) copy := by
  rcases told.held copy sent with rfl | held
  · refine ⟨_, List.mem_cons_of_mem _ List.mem_cons_self, rfl, ?_, rfl⟩
    exact Timestamp.plus_le_plus since _
  · exact stems_serving held

/-- Copies that stem from those of an exchange are welcome to both engines. -/
theorem welcome_of_stems {settings : Settings} {owner : PeerId} {engine : Engine}
    {copies entries : List Entry} {version : UInt32} (sound : engine.Sound settings owner)
    (before : clock ≤ finish)
    (lasts : ∀ copy ∈ copies, finish < copy.expiresAt ∧ copy.record.version = version)
    (same : settings.version = version)
    (room : (others owner (ids copies)).length ≤ settings.cacheSize.toNat)
    (stems : ∀ copy ∈ engine.cache.entries ++ entries, Stems copies copy) :
    engine.Welcome clock (entries.map Entry.unscoped) where
  live := by
    rw [sound.configured, same]
    intro copy member
    have traced : Stems copies copy := by
      rcases List.mem_append.mp member with held | came
      · exact stems copy (List.mem_append_left _ held)
      · obtain ⟨copy, sent, rfl⟩ := List.mem_map.mp came
        obtain ⟨first, origin⟩ := stems copy (List.mem_append_right _ sent)
        exact ⟨first, origin⟩
    obtain ⟨first, there, _, expires, version⟩ := traced
    obtain ⟨alive, current⟩ := lasts first there
    exact ⟨UInt64.lt_of_le_of_lt before (UInt64.lt_of_lt_of_le alive expires),
      version.trans current⟩
  room := by
    have owned : engine.owner = owner := sound.owned
    rw [owned, sound.configured, ids_eq_of_mark_eq (map_mark_map mark_unscoped)]
    refine (others_le ?_).trans room
    rw [ids, ids, ← List.map_append]
    intro id known
    obtain ⟨copy, member, rfl⟩ := List.mem_map.mp known
    obtain ⟨first, there, same, _⟩ := stems copy member
    rw [same]
    exact mem_ids_of_mem there

/-- What a direct exchange leaves behind. The cache of each node is the join of what it held and of
what the other node told; the reply was told before the request was merged. -/
structure Joint (algorithm : Algorithm) (caller callee : Node) (asking serving : Engine)
    (request reply : List Entry) (asked served : Engine) : Prop where
  requests : asking.older.Introduces caller.record caller.clock request
  replies : ∃ made, callee.clock ≤ made ∧ serving.Introduces callee.record made reply
  callerJoins : Joined caller.record.id asking.cache.entries reply asked.cache.entries
  calleeJoins : Joined callee.record.id serving.cache.entries request served.cache.entries
  callerKnows : ∃ copy ∈ asked.cache.entries,
    copy.id = callee.record.id ∧ copy.record.epoch = callee.record.epoch
  calleeKnows : ∃ copy ∈ served.cache.entries,
    copy.id = caller.record.id ∧ caller.record.epoch ≤ copy.record.epoch
  callerKeeps : algorithm.policy.keepsFallback → ∃ pool, asked.fallback = some pool ∧
    callee.record.id ∈ ids pool.entries

/-- The node that served knows the one that asked. -/
theorem callee_knows {request : List Entry} {served : Engine}
    (apart : caller.record.id ≠ callee.record.id)
    (told : asking.older.Introduces caller.record caller.clock request)
    (joined : Joined callee.record.id serving.cache.entries request served.cache.entries) :
    ∃ copy ∈ served.cache.entries,
      copy.id = caller.record.id ∧ caller.record.epoch ≤ copy.record.epoch := by
  have there := List.mem_append_right serving.cache.entries told.self
  obtain ⟨copy, held, same, stale⟩ := joined.holds there apart
  exact ⟨copy, held, same, Entry.epoch_le_of_key_le stale⟩

section Meeting

variable (meeting : Meeting algorithm caller callee asking serving finish)

include meeting

theorem Meeting.asking_sound : asking.older.Sound caller.settings caller.record.id := by
  have step : Engine.Step (fun _ => True) (fun _ => True) asking asking.older := .older
  exact step.sound meeting.askingReached.sound

/-- The node that asked knows the other one as it is. -/
theorem Meeting.caller_knows {reply : List Entry} {asked : Engine}
    (apart : caller.record.id ≠ callee.record.id) (since : callee.clock ≤ made)
    (told : serving.Introduces callee.record made reply)
    (joined : Joined caller.record.id asking.cache.entries reply asked.cache.entries) :
    ∃ copy ∈ asked.cache.entries,
      copy.id = callee.record.id ∧ copy.record.epoch = callee.record.epoch := by
  have there := List.mem_append_right asking.cache.entries told.self
  obtain ⟨copy, held, same, stale⟩ := joined.holds there apart.symm
  obtain ⟨best, available, named, equal⟩ := (joined.freshest copy held).1
  have fresh : copy.key ≤ (serving.fresh callee.record made).key := by
    rw [← equal]
    rcases List.mem_append.mp available with before | sent
    · have current := meeting.current best before (named.trans same)
      rw [Entry.isNewerThan_iff, not_lt] at current
      exact current.trans (Entry.key_fresh_le _ since _)
    · rcases told.held best sent with rfl | own
      · exact le_rfl
      · have sound := meeting.servingReached.sound
        have foreign := sound.cache.foreign best own
        rw [sound.owned] at foreign
        exact absurd (named.trans same) foreign
  refine ⟨copy, held, same, ?_⟩
  exact UInt64.le_antisymm (Entry.epoch_le_of_key_le fresh) (Entry.epoch_le_of_key_le stale)

/-- What the engine that serves replies, and what becomes of it. -/
theorem Meeting.serving_joins {request : Message} (dice : Dice)
    (told : asking.older.Introduces caller.record caller.clock request.entries)
    (before : clock ≤ finish) :
    let answer := (serving.answer callee.record clock request.unscoped dice).1
    serving.Addresses callee.record clock request.unscoped.sender false answer.1 ∧
      Joined callee.record.id serving.cache.entries request.entries answer.2.cache.entries := by
  have welcome : serving.Welcome clock request.unscoped.entries := by
    refine welcome_of_stems meeting.servingReached.sound before meeting.lasts meeting.version
      meeting.servingRoom fun copy member => ?_
    rcases List.mem_append.mp member with held | sent
    · exact stems_serving held
    · exact stems_request told sent
  obtain ⟨addresses, joined⟩ :=
    Engine.answer_joins meeting.servingReached.sound callee.record welcome dice
  exact ⟨addresses, joined.congr rfl (map_mark_map mark_unscoped).symm⟩

/-- What becomes of the engine that asked. -/
theorem Meeting.asking_joins {reply : Message} (dice : Dice) (since : callee.clock ≤ made)
    (told : serving.Introduces callee.record made reply.entries) (before : clock ≤ finish)
    (sender : reply.sender = callee.record) (apart : caller.record.id ≠ callee.record.id) :
    let after := (asking.older.accept clock reply.unscoped dice).1
    Joined caller.record.id asking.cache.entries reply.entries after.cache.entries ∧
      (algorithm.policy.keepsFallback → ∃ pool, after.fallback = some pool ∧
        callee.record.id ∈ ids pool.entries) := by
  have welcome : asking.older.Welcome clock reply.unscoped.entries := by
    refine welcome_of_stems meeting.asking_sound before meeting.lasts rfl meeting.askingRoom
      fun copy member => ?_
    rcases List.mem_append.mp member with aged | sent
    · exact stems_asking aged
    · exact stems_reply since told sent
  have named : reply.unscoped.sender.id = callee.record.id := by
    change reply.sender.id = _
    rw [sender]
  have foreign : reply.unscoped.sender.id ≠ caller.record.id := by
    rw [named]
    exact apart.symm
  obtain ⟨joined, keeps⟩ := Engine.accept_joins meeting.asking_sound welcome foreign dice
  refine ⟨joined.congr (map_mark_map mark_older).symm (map_mark_map mark_unscoped).symm, ?_⟩
  rw [← named, ← algorithm_of_running? meeting.asks]
  exact keeps

end Meeting

/-- The messages that have gone over a connection, one each way. -/
structure Traded (caller callee : Log) (request reply : Message) : Prop where
  request : callee.heard = frame Layout.message request
  reply : caller.heard = frame Layout.message reply

/-- A node from which a reply was heard has answered the request that was said to it. -/
theorem Served.traded {after : Desk} {theirs : Log} {maximum : Nat} {request reply : Message}
    (served : Served callee after) (linked : Linked theirs after.mine)
    (fits : Fits Layout.message request) (said : theirs.said = frame Layout.message request)
    (heard : IsFrame Layout.message maximum theirs.heard reply) :
    ∃ algorithm clock, callee.clock ≤ clock ∧ Asks callee request.unscoped algorithm ∧
      let answer := answered { callee with clock } algorithm request.unscoped
      reply = answer.1.unscoped ∧ Traded theirs after.mine request answer.1 ∧
        Passes answer.2 after.node := by
  rcases served with
    silent | ⟨arrived, algorithm, clock, since, ⟨complete, asks⟩, fitting, early, passes⟩
  · -- whoever has said nothing was not heard to say a frame
    have nothing := linked.hither
    rw [silent, List.prefix_nil] at nothing
    have four := (Wire.isFrame_iff.mp heard).1
    rw [nothing] at four
    exact absurd four (by decide)
  · have asked : after.mine.heard <+: frame Layout.message request := said ▸ linked.thither
    have told := linked.hither.trans early
    obtain rfl : arrived = request.unscoped :=
      Wire.eq_of_isFrame Layout.message_faithful fits asked complete
    refine ⟨algorithm, clock, since, asks, ?_, ⟨?_, ?_⟩, passes⟩
    · exact Wire.eq_of_isFrame Layout.message_faithful fitting told heard
    · exact Wire.eq_frame_of_isFrame fits asked complete
    · exact Wire.eq_frame_of_isFrame fitting told heard

/-- The engine that runs is the one that answers. -/
theorem answered_of_running? {node : Node} {engine : Engine}
    (runs : node.running? algorithm = some engine) (made : Timestamp) (request : Message) :
    let answer := engine.answer node.record made request node.dice
    (answered { node with clock := made } algorithm request).1 = answer.1.1 ∧
      (answered { node with clock := made } algorithm request).2.running? algorithm =
        some answer.1.2 := by
  have looked : ({ node with clock := made } : Node).engine algorithm = engine :=
    engine_of_running? runs
  have named : (engine.answer node.record made request node.dice).1.2.algorithm = algorithm := by
    obtain ⟨cache, tally, same⟩ := engine.answer_frame node.record made request node.dice
    rw [same]
    change engine.algorithm = algorithm
    exact algorithm_of_running? runs
  have still (dice : Dice) : ({ node with clock := made, dice } : Node).running? algorithm =
      some engine := runs
  rw [answered, looked]
  exact ⟨rfl, running?_withEngine (still _) named⟩

theorem ofName?_name (algorithm : Algorithm) :
    Algorithm.ofName? algorithm.name = some algorithm := by
  cases algorithm <;> decide

theorem algorithm_of_asks {other : Algorithm} {request : Message}
    (asks : Asks callee request other) (named : request.algorithm = algorithm.name) :
    other = algorithm := by
  have found := asks.2.1
  rw [named, ofName?_name] at found
  exact (Option.some.inj found).symm

/-- A round that turned to another node and went well has joined the views of both: each with what
it has heard from the other one. -/
theorem exchange_joins (meeting : Meeting algorithm caller callee asking serving finish)
    {received : Nat} {answer : Except Failure Unit}
    {after : Talk (Except Failure Round) (Except Failure Unit)}
    (steps : Steps false (.start (round algorithm).run caller
      (closing stream (dispatch .gossip stream none)).run callee) after)
    (called : after.caller.program = .done (.ok (.exchanged callee.record.id received false)))
    (answered : after.callee.program = .done answer) (callerEnds : after.caller.node.clock ≤ finish)
    (calleeEnds : after.callee.node.clock ≤ finish) :
    ∃ request reply asked served,
      Traded after.caller.log after.callee.log request reply ∧ received = reply.entries.length ∧
      after.caller.node.running? algorithm = some asked ∧
      after.callee.node.running? algorithm = some served ∧
      Joint algorithm caller callee asking serving request.entries reply.entries asked served := by
  have begun := sound_start (Protocol.free_lawful false)
    (@keeps_round algorithm ⟨caller, .fresh, .fresh⟩ asking rfl meeting.asks meeting.alone)
    (@keeps_serving stream ⟨callee, .fresh, .fresh⟩ rfl)
  have sound := begun.steps (Protocol.free_lawful false) steps
  obtain ⟨⟨asks, callerLater, won⟩, ⟨serves, calleeLater, served⟩⟩ := sound.ends called answered
  obtain ⟨apart, target, request, reply, clock, dice, _, count, won⟩ := won _ _ rfl
  have linked : Linked asks.mine serves.mine := by
    rw [← callerLater.mine, ← calleeLater.mine]
    exact sound.linked
  obtain ⟨other, made, since, asked, rfl, traded, passes⟩ :=
    served.traded linked won.fits won.said won.heard
  rw [← callerLater.mine, ← calleeLater.mine] at traded
  have named := algorithm_of_running? meeting.asks
  obtain rfl : other = algorithm := by
    refine algorithm_of_asks asked ?_
    rw [← named]
    exact won.addresses.algorithm
  obtain ⟨told, runs⟩ := answered_of_running? meeting.serves made request.unscoped
  rw [told] at won count traded
  -- after its last answer, nothing but the time changes for a node
  obtain ⟨callerTime, callerOnward, callerNode⟩ := callerLater.node
  obtain ⟨calleeTime, calleeOnward, calleeNode⟩ := passes.trans calleeLater.node
  change after.caller.node = { asks.node with clock := callerTime } at callerNode
  change after.callee.node = _ at calleeNode
  have askedBefore : clock ≤ finish := by
    rw [callerNode] at callerEnds
    exact Timestamp.le_trans (Timestamp.le_trans won.past callerOnward) callerEnds
  have madeBefore : made ≤ finish := by
    rw [calleeNode] at calleeEnds
    exact Timestamp.le_trans calleeOnward calleeEnds
  obtain ⟨addresses, calleeJoins⟩ :=
    meeting.serving_joins callee.dice won.addresses.introduces madeBefore
  obtain ⟨callerJoins, callerKeeps⟩ := meeting.asking_joins dice since addresses.introduces
    askedBefore addresses.sender apart.symm
  refine ⟨request, _, _, _, traded, ?_, ?_, ?_, won.addresses.introduces,
    ⟨made, since, addresses.introduces⟩, callerJoins, calleeJoins,
    meeting.caller_knows apart.symm since addresses.introduces callerJoins,
    callee_knows apart.symm won.addresses.introduces calleeJoins, callerKeeps⟩
  · rw [count]
    exact List.length_map _
  · rw [callerNode]
    exact won.runs
  · rw [calleeNode]
    exact runs

end Joins

section Introduction

/-- A request that tells of some peers. -/
def introduction (peers : List Nat) : Message :=
  { sender := .numbered 9, receiver := .numbered 0
    entries := peers.map fun number => .fresh (.numbered number) ⟨0⟩ 60000
    isRequest := true, algorithm := "arrg" }

/-- An engine that was told of some peers. -/
def introduced (number : Nat) (peers : List Nat) : Engine :=
  ((Engine.start .arrg .brisk (.ofNat number) ⟨0⟩).answer (.numbered number) ⟨0⟩
    (introduction peers) .last).1.2

/-- A node that runs such an engine. -/
def host (number : Nat) (peers : List Nat) : Node :=
  { Node.start .brisk (.numbered number) ⟨0⟩ .last .none none with
    engines := [introduced number peers] }

/-- A node that is about to ask another one. Both know a third one already. -/
def visit : Talk (Except Failure Round) (Except Failure Unit) :=
  .start (round .arrg).run (host 0 [2, 1]) (closing ⟨0⟩ (dispatch .gossip ⟨0⟩ none)).run
    (host 1 [2, 3])

theorem meeting_hosts : Meeting .arrg (host 0 [2, 1]) (host 1 [2, 3]) (introduced 0 [2, 1])
    (introduced 1 [2, 3]) ⟨0⟩ where
  asks := rfl
  serves := rfl
  askingReached := (Engine.Reached.start .arrg ⟨0⟩).step (.answer _ _ _ _ trivial)
  servingReached := (Engine.Reached.start .arrg ⟨0⟩).step (.answer _ _ _ _ trivial)
  alone := rfl
  version := rfl
  lasts := by decide +kernel
  askingRoom := by decide +kernel
  servingRoom := by decide +kernel
  current := by decide +kernel

theorem exchange_joins_hosts :
    Meeting .arrg (host 0 [2, 1]) (host 1 [2, 3]) (introduced 0 [2, 1]) (introduced 1 [2, 3]) ⟨0⟩ ∧
      ∃ ending, Steps false visit ending ∧
        ending.caller.program = .done (.ok (.exchanged (.ofNat 1) 3 false)) ∧
        ending.callee.program = .done (.ok ()) ∧
        ∃ request reply asked served,
          Traded ending.caller.log ending.callee.log request reply ∧ 3 = reply.entries.length ∧
          ending.caller.node.running? .arrg = some asked ∧
          ending.callee.node.running? .arrg = some served ∧
          Joint .arrg (host 0 [2, 1]) (host 1 [2, 3]) (introduced 0 [2, 1]) (introduced 1 [2, 3])
            request.entries reply.entries asked served := by
  let ending := visit.play ⟨0⟩ 32
  have steps : Steps false visit ending := steps_play false ⟨0⟩ 32 visit
  have called : ending.caller.program = .done (.ok (.exchanged (.ofNat 1) 3 false)) :=
    Side.done_of_result? (by decide +kernel)
  have served : ending.callee.program = .done (.ok ()) := Side.done_of_result? (by decide +kernel)
  have callerEnds : ending.caller.node.clock ≤ ⟨0⟩ := by decide +kernel
  have calleeEnds : ending.callee.node.clock ≤ ⟨0⟩ := by decide +kernel
  exact ⟨meeting_hosts, ending, steps, called, served,
    exchange_joins meeting_hosts steps called served callerEnds calleeEnds⟩

end Introduction

end Overlay.Node.Exchange
