import Overlay.Node.Inbound
import Overlay.Proofs.Node.Inbound
import Overlay.Proofs.Node.Seat
import Overlay.Proofs.Program.Play
import Overlay.Proofs.Settings
import Overlay.Proofs.Vivaldi.RoundTrip
import Overlay.Proofs.Vivaldi.Samples

/-!
A ping and the node that echoes it, over a connection that loses nothing and is in time.

Each of the two counts the bytes by its own settings. The node that echoes is done after as many
bytes as it counts, or when the other one hangs up, and that is no failure for it. The node that
pings needs all the bytes that it counts. So a ping goes well just if the other node counts as many
bytes at least; otherwise it finds the stream closed (`ping_concludes`).
-/

set_option autoImplicit false

namespace Overlay.Node.Echoing

open Attempt Conversation Surroundings
open Inbound (place)

/-- The bytes that a ping sends. -/
def numbers (count : Nat) : Wire.Bytes := (List.range count).map UInt8.ofNat

@[simp] theorem length_numbers (count : Nat) : (numbers count).length = count := by
  rw [numbers, List.length_map, List.length_range]

theorem numbers_succ (count : Nat) :
    numbers (count + 1) = numbers count ++ [UInt8.ofNat count] := by
  rw [numbers, List.range_succ, List.map_append]
  rfl

/-- What holds of the logs of a ping: the node that echoes says its block and then what it has
heard, and neither leaves before it is done, but after the other one. -/
structure Accord (told : Wire.Bytes) (asked echoed : Nat) (caller callee : Log) : Prop where
  echoes : callee.said <+: told ++ callee.heard
  counts : callee.heard.length ≤ echoed
  served : callee.gone → callee.said = told ++ callee.heard ∧
    (callee.heard.length = echoed ∨ caller.gone)
  measured : caller.gone → caller.heard = told ++ caller.said ∧ caller.said.length = asked ∨
    callee.gone

/-- The rules of a ping that sends so many bytes, to a node that sends so many back. -/
def protocol (told : Wire.Bytes) (asked echoed : Nat) : Protocol where
  accord := Accord told asked echoed
  caller
    | .read _ count _, mine, _ => mine.gone = false ∧
      mine.heard.length + count ≤ told.length + mine.said.length
    | .write .., mine, _ => mine.gone = false
    | .close _, mine, theirs =>
      mine.heard = told ++ mine.said ∧ mine.said.length = asked ∨ theirs.gone
    | _, _, _ => True
  callee
    | .read _ count _, mine, _ => mine.gone = false ∧ count = 1 ∧ mine.said = told ++ mine.heard ∧
      mine.heard.length < echoed
    | .write _ bytes _, mine, _ => mine.gone = false ∧ mine.said ++ bytes <+: told ++ mine.heard
    | .close _, mine, theirs => mine.said = told ++ mine.heard ∧
      (mine.heard.length = echoed ∨ theirs.gone)
    | _, _, _ => True

section Protocol

variable {told : Wire.Bytes} {asked echoed : Nat}

/-- The node that pings may hear and say what it likes before it leaves. -/
theorem Accord.caller_active {caller callee after : Log}
    (accord : Accord told asked echoed caller callee) (here : caller.gone = false)
    (still : after.gone = false) : Accord told asked echoed after callee where
  echoes := accord.echoes
  counts := accord.counts
  served gone := by
    obtain ⟨said, why⟩ := accord.served gone
    refine ⟨said, Or.inl (why.resolve_right ?_)⟩
    rw [here]
    exact Bool.false_ne_true
  measured gone := by
    rw [still] at gone
    cases gone

theorem caller_lawful (told : Wire.Bytes) (asked echoed : Nat) :
    (protocol told asked echoed).callerManners.Lawful true where
  keeps := by
    intro mine theirs request reply after linked accord may answer
    cases request with
    | read stream count deadline =>
        obtain ⟨part, _, rfl⟩ := answer.reads
        exact accord.caller_active may.1 may.1
    | write stream bytes deadline =>
        obtain ⟨part, _, rfl⟩ := answer.writes
        exact accord.caller_active may may
    | close stream =>
        cases answer
        refine ⟨accord.echoes, accord.counts, fun gone => ?_, fun _ => may⟩
        obtain ⟨said, why⟩ := accord.served gone
        exact ⟨said, why.imp_right fun _ => rfl⟩
    | connect =>
        rw [answer.connects]
        exact accord
    | moment =>
        obtain ⟨-, rfl⟩ := answer
        exact accord
    | _ =>
        cases answer
        exact accord
  stable := by
    intro request mine theirs later may grows
    cases request with
    | close => exact may.imp_right grows.gone
    | _ => exact may

theorem callee_lawful (told : Wire.Bytes) (asked echoed : Nat) :
    (protocol told asked echoed).calleeManners.Lawful true where
  keeps := by
    intro mine theirs request reply after linked accord may answer
    change Accord told asked echoed theirs mine at accord
    change Accord told asked echoed theirs after
    cases request with
    | read stream count deadline =>
        obtain ⟨here, rfl, said, fewer⟩ := may
        obtain ⟨part, coming, rfl⟩ := answer.reads
        have single : part.length ≤ 1 := by
          have taken := coming.length_le
          rw [List.length_take] at taken
          omega
        refine ⟨?_, ?_, fun gone => ?_, accord.measured⟩
        · change mine.said <+: told ++ (mine.heard ++ part)
          rw [said, ← List.append_assoc]
          exact List.prefix_append _ _
        · change (mine.heard ++ part).length ≤ echoed
          rw [List.length_append]
          omega
        · cases here.symm.trans gone
    | write stream bytes deadline =>
        obtain ⟨here, early⟩ := may
        obtain ⟨part, front, rfl⟩ := answer.writes
        refine ⟨?_, accord.counts, fun gone => ?_, accord.measured⟩
        · exact ((List.prefix_append_right_inj _).mpr front).trans early
        · cases here.symm.trans gone
    | close stream =>
        cases answer
        exact ⟨accord.echoes, accord.counts, fun _ => may, fun gone => Or.inr rfl⟩
    | connect =>
        rw [answer.connects]
        exact accord
    | moment =>
        obtain ⟨-, rfl⟩ := answer
        exact accord
    | _ =>
        cases answer
        exact accord
  stable := by
    intro request mine theirs later may grows
    cases request with
    | close => exact ⟨may.1, may.2.imp_right grows.gone⟩
    | _ => exact may

theorem protocol_lawful (told : Wire.Bytes) (asked echoed : Nat) :
    (protocol told asked echoed).Lawful true where
  begins := ⟨List.nil_prefix, Nat.zero_le _, nofun, nofun⟩
  caller := caller_lawful told asked echoed
  callee := callee_lawful told asked echoed

/-- What the node that pings waits for has been said, as soon as the other one has heard all. -/
theorem protocol_free (told : Wire.Bytes) (asked echoed : Nat) :
    (protocol told asked echoed).Free := by
  intro caller callee wanted awaited linked accord mayCaller mayCallee
  rintro ⟨waiting, also⟩
  cases wanted with
  | read stream count deadline =>
      cases awaited with
      | read other more until' =>
          obtain ⟨_, rfl, said, _⟩ := mayCallee
          obtain ⟨_, needs⟩ := mayCaller
          -- the one that echoes has heard all that was said to it, and has sent all of that back
          have unsaid := waiting.1
          have unheard := also.1
          rw [Log.unheard, List.length_drop] at unsaid unheard
          rw [said, List.length_append] at unsaid
          omega
      | _ => exact also
  | _ => exact waiting

end Protocol

section Callee

variable {told : Wire.Bytes} {asked echoed : Nat} {stream : StreamId} {limit : Limit} {now : Desk}

/-- The node that echoes, as it sees itself. -/
abbrev far (told : Wire.Bytes) (asked echoed : Nat) : Surroundings Node Desk :=
  seat true (protocol told asked echoed).calleeManners

/-- As long as something is left to be said to it, the node that pings is there. -/
theorem caller_there {caller callee : Log} (linked : Linked caller callee)
    (accord : Accord told asked echoed caller callee) (here : callee.gone = false)
    (behind : callee.said.length < told.length + callee.heard.length ∨
      callee.said.length < told.length) : ¬ caller.gone := by
  intro gone
  rcases accord.measured gone with ⟨heard, _⟩ | left
  · have all := linked.hither.length_le
    have sent := linked.thither.length_le
    rw [heard, List.length_append] at all
    omega
  · rw [here] at left
    cases left

/-- The node that echoes has said its block and all that it has heard. -/
structure Echoed (told : Wire.Bytes) (now : Desk) : Prop where
  here : now.mine.gone = false
  said : now.mine.said = told ++ now.mine.heard

theorem Echoed.later {before after : Desk} (state : Echoed told before)
    (later : Later before after) : Echoed told after := by
  constructor
  · rw [later.mine]
    exact state.here
  · rw [later.mine]
    exact state.said

theorem keeps_echoBack {rounds : Nat} (state : Echoed told now)
    (count : now.mine.heard.length + rounds = echoed) :
    (far told asked echoed).Keeps (echoBack stream limit rounds).run (fun result after =>
      result = .ok () ∧ after.mine.said = told ++ after.mine.heard ∧
        (after.mine.heard.length = echoed ∨ after.theirs.gone)) now := by
  induction rounds generalizing now with
  | zero => exact ⟨rfl, state.said, Or.inl count⟩
  | succ rounds ih =>
      simp only [echoBack, keeps_run_bind, keeps_run_perform, Program.read]
      have fewer : now.mine.heard.length < echoed := by omega
      refine keeps_ask ⟨state.here, rfl, state.said, fewer⟩
        fun reply middle log waited answer => ?_
      have state := state.later waited.toLater
      rw [← waited.mine] at count
      cases reply with
      | bytes content =>
          obtain ⟨enough, rfl, rfl⟩ := answer
          have one : ((middle.mine.unheard middle.theirs).take 1).length = 1 :=
            List.length_take_of_le enough
          generalize (middle.mine.unheard middle.theirs).take 1 = content at one
          have said : middle.mine.said ++ content = told ++ (middle.mine.heard ++ content) := by
            rw [state.said, List.append_assoc]
          have early : middle.mine.said ++ content <+: told ++ (middle.mine.heard ++ content) :=
            said ▸ List.prefix_rfl
          refine (keeps_run_bind _ _).mpr (keeps_send ⟨state.here, early⟩ ?_ ?_ Bool.noConfusion)
          · intro echoed further
            refine ih ⟨?_, ?_⟩ ?_
            · change echoed.mine.gone = false
              rw [further.mine]
              exact state.here
            · change echoed.mine.said ++ content = told ++ echoed.mine.heard
              rw [further.mine]
              exact said
            · change echoed.mine.heard.length + rounds = _
              rw [further.mine]
              change (middle.mine.heard ++ content).length + rounds = _
              rw [List.length_append]
              omega
          · intro cut part further _ why
            refine absurd (why.resolve_left Bool.noConfusion) ?_
            refine caller_there further.linked.symm further.agreed ?_ (Or.inl ?_)
            · rw [further.mine]
              exact state.here
            · rw [further.mine]
              change middle.mine.said.length < told.length + (middle.mine.heard ++ content).length
              rw [state.said, List.length_append, List.length_append]
              omega
      | ended =>
          obtain ⟨why, part, coming, rfl⟩ := answer
          obtain ⟨gone, short⟩ := why.resolve_left Bool.noConfusion
          have nothing : part = [] := by
            have few := coming.length_le
            rw [List.length_take] at few
            exact List.eq_nil_of_length_eq_zero (by omega)
          subst nothing
          refine ⟨rfl, ?_, Or.inr gone⟩
          change middle.mine.said = told ++ (middle.mine.heard ++ [])
          rw [List.append_nil]
          exact state.said
      | expired => cases answer.1

theorem length_place (node : Node) : (place node).length = Wire.CoordinateBlock.size :=
  Wire.CoordinateBlock.length_encode _

theorem decode_place (node : Node) :
    Wire.CoordinateBlock.decode (place node) = ⟨node.position.coordinate, node.position.error⟩ :=
  Wire.CoordinateBlock.decode_encode _

/-- However the one that pings behaves, the node that echoes ends without an error. -/
theorem keeps_serving (fresh : now.mine = .fresh) :
    (far (place now.node) asked (echoRounds now.node.settings)).Keeps
      (closing stream (dispatch .vivaldi stream none)).run
      (fun result after => result = .ok () ∧ after.mine.gone) now := by
  refine keeps_closing ?_
  change (far _ asked _).Keeps (serveEcho stream none).run _ now
  simp only [serveEcho, keeps_run_bind, keeps_run_get]
  refine keeps_limit trivial fun limit middle waited => ?_
  have fresh : middle.mine = .fresh := waited.mine.trans fresh
  refine keeps_send ⟨by rw [fresh]; rfl, by rw [fresh]; exact List.prefix_append _ _⟩ ?_ ?_
    Bool.noConfusion
  · intro told further
    have fresh : told.mine = .fresh := further.mine.trans fresh
    have state : Echoed (place now.node) (told.utters (place now.node)) := by
      refine ⟨?_, ?_⟩
      · change told.mine.gone = false
        rw [fresh]
        rfl
      · change told.mine.said ++ _ = _ ++ told.mine.heard
        rw [fresh]
        exact (List.append_nil _).symm
    have count : (told.utters (place now.node)).mine.heard.length + echoRounds now.node.settings =
        echoRounds now.node.settings := by
      change told.mine.heard.length + _ = _
      rw [fresh]
      exact Nat.zero_add _
    refine (keeps_echoBack state count).mono fun result after ends => ⟨ends.2, fun _ _ => ?_⟩
    exact ⟨ends.1, rfl⟩
  · intro cut part further _ why
    have fresh : cut.mine = .fresh := further.mine.trans fresh
    refine absurd (why.resolve_left Bool.noConfusion) ?_
    refine caller_there further.linked.symm further.agreed ?_ (Or.inr ?_)
    · rw [fresh]
      rfl
    · rw [fresh, length_place]
      exact Nat.zero_lt_succ _

end Callee

section Caller

variable {told : Wire.Bytes} {asked echoed : Nat} {stream : StreamId} {limit : Limit} {now : Desk}

/-- The node that pings, as it sees itself. -/
abbrev near (told : Wire.Bytes) (asked echoed : Nat) : Surroundings Node Desk :=
  seat true (protocol told asked echoed).callerManners

/-- A node that is left before it leaves has been served. -/
theorem callee_served {caller callee : Log} (linked : Linked caller callee)
    (accord : Accord told asked echoed caller callee) (here : caller.gone = false)
    (left : callee.gone) : callee.said.length = told.length + echoed ∧
      echoed ≤ caller.said.length := by
  obtain ⟨said, why⟩ := accord.served left
  have all : callee.heard.length = echoed := by
    refine why.resolve_right ?_
    rw [here]
    exact Bool.false_ne_true
  constructor
  · rw [said, List.length_append, all]
  · rw [← all]
    exact linked.thither.length_le

/-- The node that pings has said so many bytes, and has heard the block and so many bytes. -/
structure Measuring (told : Wire.Bytes) (spoken returned : Nat) (now : Desk) : Prop where
  here : now.mine.gone = false
  said : now.mine.said = numbers spoken
  heard : now.mine.heard = told ++ numbers returned

theorem Measuring.later {spoken returned : Nat} {before after : Desk}
    (state : Measuring told spoken returned before) (later : Later before after) :
    Measuring told spoken returned after := by
  obtain ⟨here, said, heard⟩ := state
  rw [← later.mine] at here said heard
  exact ⟨here, said, heard⟩

/-- The other node was done too early. -/
structure CutOff (asked echoed : Nat) (failure : Failure) (after : Desk) : Prop where
  failure : failure = .wire (.stream .brokenPipe) ∨ failure = .wire (.stream .endInNumber)
  fewer : echoed < asked
  gone : after.theirs.gone

/-- A byte can be said as long as the other node is not done. -/
theorem keeps_tell {count : Nat} (state : Measuring told count count now) (fewer : count < asked) :
    (near told asked echoed).Keeps (send stream [UInt8.ofNat count] limit).run
      (fun result after => match result with
        | .ok () => Measuring told (count + 1) count after
        | .error failure => CutOff asked echoed failure after) now := by
  refine keeps_send state.here ?_ ?_ Bool.noConfusion
  · intro middle waited
    have state := state.later waited.toLater
    refine ⟨state.here, ?_, state.heard⟩
    rw [numbers_succ, ← state.said]
    rfl
  · intro middle part waited _ why
    have state := state.later waited.toLater
    have gone := why.resolve_left Bool.noConfusion
    obtain ⟨-, served⟩ := callee_served waited.linked waited.agreed state.here gone
    rw [state.said, length_numbers] at served
    exact ⟨Or.inl rfl, by omega, gone⟩

/-- What comes back is what was said. -/
theorem keeps_hear {count : Nat} (state : Measuring told (count + 1) count now)
    (fewer : count < asked) :
    (near told asked echoed).Keeps (receiveByte stream limit).run
      (fun result after => match result with
        | .ok byte => byte = UInt8.ofNat count ∧ Measuring told (count + 1) (count + 1) after ∧
            count < echoed
        | .error failure => CutOff asked echoed failure after) now := by
  have may : now.mine.heard.length + 1 ≤ told.length + now.mine.said.length := by
    rw [state.heard, state.said, List.length_append, length_numbers, length_numbers]
    omega
  refine keeps_receiveByte ⟨state.here, may⟩ ?_ ?_ Bool.noConfusion
  · intro middle byte waited coming
    have state := state.later waited.toLater
    have hears := waited.linked.hears coming
    have agreed := waited.agreed
    have early : told ++ numbers count ++ [byte] <+: told ++ numbers (count + 1) := by
      rw [← state.heard, ← state.said]
      exact hears.hither.trans (agreed.echoes.trans
        ((List.prefix_append_right_inj _).mpr hears.thither))
    -- what was heard is the front of what was said, and as long as that
    have same : told ++ numbers count ++ [byte] = told ++ numbers (count + 1) :=
      early.eq_of_length (by simp only [List.length_append, length_numbers, List.length_singleton,
        Nat.add_assoc])
    rw [List.append_assoc, numbers_succ, List.append_cancel_left_eq, List.append_cancel_left_eq,
      List.singleton_inj] at same
    subst same
    refine ⟨rfl, ⟨state.here, state.said, ?_⟩, ?_⟩
    · change middle.mine.heard ++ _ = _
      rw [state.heard, numbers_succ, List.append_assoc]
    · have heard := hears.hither.length_le.trans agreed.echoes.length_le
      change (middle.mine.heard ++ [_]).length ≤ (told ++ middle.theirs.heard).length at heard
      rw [state.heard, List.length_append, List.length_append, List.length_append, length_numbers,
        List.length_singleton] at heard
      have counts := agreed.counts
      omega
  · intro middle part waited why
    have state := state.later waited.toLater
    obtain ⟨gone, nothing⟩ := why.resolve_left Bool.noConfusion
    obtain ⟨said, -⟩ := callee_served waited.linked waited.agreed state.here gone
    have all := congrArg List.length (heard_append_unheard waited.linked)
    change (middle.mine.heard ++ middle.coming).length = middle.theirs.said.length at all
    rw [nothing, List.append_nil, state.heard, said, List.length_append, length_numbers] at all
    exact ⟨Or.inr rfl, by omega, gone⟩

/-- All bytes came back, or the other node was done too early. -/
def Timed (told : Wire.Bytes) (asked echoed : Nat) (result : Except Failure Binary64)
    (after : Desk) : Prop :=
  match result with
  | .ok best => Vivaldi.isRoundTrip best ∧ Measuring told asked asked after ∧ asked ≤ echoed
  | .error failure => CutOff asked echoed failure after

theorem keeps_echo {rounds count : Nat} {best : Binary64} (state : Measuring told count count now)
    (sum : count + rounds = asked) (within : count ≤ echoed)
    (begun : best = .infinity ∧ 0 < rounds ∨ Vivaldi.isRoundTrip best) :
    (near told asked echoed).Keeps (echo stream limit rounds (UInt8.ofNat count) best).run
      (Timed told asked echoed) now := by
  induction rounds generalizing count best now with
  | zero =>
      obtain rfl : count = asked := sum
      exact ⟨begun.resolve_left fun none => absurd none.2 (Nat.lt_irrefl 0), state, within⟩
  | succ rounds ih =>
      simp only [echo, keeps_run_bind, keeps_run_perform]
      refine keeps_now trivial fun before middle waited small => ?_
      have state := state.later waited.toLater
      refine (keeps_tell state (by omega)).mono fun result told' tells => ?_
      cases result with
      | error failure => exact tells
      | ok _ =>
          refine (keeps_hear tells (by omega)).mono fun result heard hears => ?_
          cases result with
          | error failure => exact hears
          | ok byte =>
              obtain ⟨rfl, state, further⟩ := hears
              simp only [bne_self_eq_false, Bool.false_eq_true, ↓reduceIte, keeps_run_bind,
                keeps_run_perform]
              refine keeps_now trivial fun moment later waited small => ?_
              have next : UInt8.ofNat count + 1 = UInt8.ofNat (count + 1) :=
                (UInt8.ofNat_add count 1).symm
              rw [next]
              refine ih (state.later waited.toLater) (by omega) further (Or.inr ?_)
              refine Vivaldi.isRoundTrip_min ?_ (begun.imp_left And.left)
              exact Vivaldi.isRoundTrip_millis (by omega)

/-- The block that the other node tells first is heard as it was told. -/
theorem hears_block {count : Nat} {middle : Desk}
    (waited : Waited (protocol told asked echoed).callerManners now middle)
    (fresh : now.mine = .fresh) (length : told.length = count)
    (enough : count ≤ middle.coming.length) : middle.coming.take count = told := by
  have all := heard_append_unheard waited.linked
  have silent : middle.theirs.heard = [] := by
    have heard := waited.linked.thither
    rw [waited.mine, fresh] at heard
    exact List.prefix_nil.mp heard
  have echoes := waited.agreed.echoes
  rw [silent, List.append_nil, ← all, waited.mine, fresh] at echoes
  change ([] : Wire.Bytes) ++ Log.unheard Log.fresh middle.theirs <+: told at echoes
  have coming : middle.coming = told := by
    rw [Desk.coming, waited.mine, fresh] at enough ⊢
    exact echoes.eq_of_length_le (by rw [length]; exact enough)
  rw [coming, ← length, List.take_length]

/-- What a measurement comes to. -/
def Measured (peer : Node) (asked echoed : Nat)
    (result : Except Failure (Vivaldi.Sample Binary64)) : Prop :=
  match result with
  | .ok sample => asked ≤ echoed ∧ Vivaldi.isRoundTrip sample.roundTrip ∧
      sample.remote = peer.position.coordinate ∧ sample.remoteError = peer.position.error
  | .error failure => echoed < asked ∧
      (failure = .wire (.stream .brokenPipe) ∨ failure = .wire (.stream .endInNumber))

theorem keeps_measure {peer : Node} {address : SocketAddress} (fresh : now.mine = .fresh) :
    (near (place peer) (echoRounds now.node.settings) echoed).Keeps (measure address).run
      (fun result after => Measured peer (echoRounds now.node.settings) echoed result ∧
        after.mine.gone) now := by
  generalize count : echoRounds now.node.settings = asked
  have some : 0 < asked := by
    rw [← count, echoRounds]
    exact Nat.lt_of_lt_of_le Nat.zero_lt_one (Nat.le_max_left 1 _)
  simp only [measure, keeps_run_bind, keeps_run_get]
  refine keeps_limit trivial fun limit ready waited => ?_
  refine keeps_connected trivial (fun stream opened waited' => keeps_closing ?_) Bool.noConfusion
  have fresh : opened.mine = .fresh := waited'.mine.trans (waited.mine.trans fresh)
  have length : (place peer).length = Wire.CoordinateBlock.size := length_place peer
  simp only [keeps_run_bind]
  refine keeps_receive ⟨by rw [fresh]; rfl, by rw [fresh, length]; exact Nat.le_refl _⟩ ?_ ?_
    Bool.noConfusion
  · intro middle waited enough
    rw [hears_block waited fresh length enough]
    simp only [decode_place]
    have state : Measuring (place peer) 0 0 (middle.hears (place peer)) := by
      have mine : middle.mine = .fresh := waited.mine.trans fresh
      refine ⟨?_, ?_, ?_⟩
      · change middle.mine.gone = false
        rw [mine]
        rfl
      · change middle.mine.said = []
        rw [mine]
        rfl
      · change middle.mine.heard ++ _ = _ ++ []
        rw [mine, List.append_nil]
        rfl
    have look : (near (place peer) asked echoed).look now = now.node := rfl
    rw [look, count]
    refine (keeps_echo state (Nat.zero_add asked) (Nat.zero_le echoed) (Or.inl ⟨rfl, some⟩)).mono
      fun result after ends => ?_
    cases result with
    | ok best =>
        obtain ⟨usable, state, enough⟩ := ends
        refine ⟨Or.inl ⟨?_, ?_⟩, fun _ _ => ⟨⟨enough, usable, rfl, rfl⟩, rfl⟩⟩
        · rw [state.heard, state.said]
        · rw [state.said, length_numbers]
    | error failure =>
        exact ⟨Or.inr ends.gone, fun _ _ => ⟨⟨ends.fewer, ends.failure⟩, rfl⟩⟩
  · intro middle part waited _ why
    -- the other node leaves only after it has said its block
    obtain ⟨gone, short⟩ := why.resolve_left Bool.noConfusion
    have mine : middle.mine = .fresh := waited.mine.trans fresh
    obtain ⟨said, -⟩ := callee_served waited.linked waited.agreed (by rw [mine]; rfl) gone
    rw [Desk.coming, Log.unheard, List.length_drop, mine, said, length] at short
    have short : Wire.CoordinateBlock.size + echoed - 0 < Wire.CoordinateBlock.size := short
    omega

/-- What a ping answers that got all its bytes back: a sample of the peer's place. Where the sample
is to move the own place, one of a place that is not finite is refused. -/
def Sampled (peer : Node) (update : Bool) (result : Except Failure (Vivaldi.Sample Binary64)) :
    Prop :=
  if update ∧ ¬ peer.position.coordinate.isFinite then
    result = .error (Vivaldi.Rejection.failure .remoteNotFinite)
  else ∃ roundTrip, Vivaldi.isRoundTrip roundTrip ∧
    result = .ok ⟨peer.position.coordinate, peer.position.error, roundTrip⟩

/-- What a ping answers: a sample, or else the other node's stream ended too early. -/
def Pinged (peer : Node) (update : Bool) (asked echoed : Nat)
    (result : Except Failure (Vivaldi.Sample Binary64)) : Prop :=
  if asked ≤ echoed then Sampled peer update result
  else result = .error (.wire (.stream .brokenPipe)) ∨
    result = .error (.wire (.stream .endInNumber))

theorem keeps_observe {sample : Vivaldi.Sample Binary64}
    {post : Except Failure Binary64 → Desk → Prop} (usable : Vivaldi.isRoundTrip sample.roundTrip)
    (accepted : sample.remote.isFinite → ∀ predicted node, post (.ok predicted) { now with node })
    (refused : ¬ sample.remote.isFinite → ∀ node,
      post (.error (Vivaldi.Rejection.failure .remoteNotFinite)) { now with node }) :
    (near told asked echoed).Keeps (observe sample).run post now := by
  simp only [observe, keeps_run_bind, keeps_run_perform]
  refine keeps_draw fun spare dice _ => ?_
  simp only [keeps_run_get]
  cases finite : sample.remote.isFinite with
  | true =>
      have admissible : sample.isAdmissible := Bool.and_eq_true_iff.mpr ⟨usable, finite⟩
      rw [Vivaldi.State.apply_eq_ok.mpr ⟨admissible, rfl, rfl⟩]
      simp only [keeps_run_bind, keeps_run_modify]
      exact ⟨trivial, accepted finite _ _⟩
  | false =>
      rw [Vivaldi.State.apply, usable, finite]
      exact refused (by rw [finite]; exact Bool.false_ne_true) _

theorem keeps_ping {peer : Node} {address : SocketAddress} {update : Bool}
    (fresh : now.mine = .fresh) :
    (near (place peer) (echoRounds now.node.settings) echoed).Keeps (ping address update).run
      (fun result after => Pinged peer update (echoRounds now.node.settings) echoed result ∧
        after.mine.gone) now := by
  rw [ping, keeps_run_bind]
  refine (keeps_measure fresh).mono fun result after ends => ?_
  obtain ⟨measured, gone⟩ := ends
  cases result with
  | error failure =>
      obtain ⟨fewer, failure⟩ := measured
      refine ⟨?_, gone⟩
      rw [Pinged, if_neg (Nat.not_le_of_lt fewer)]
      exact failure.imp (congrArg _) (congrArg _)
  | ok sample =>
      obtain ⟨enough, usable, remote, error⟩ := measured
      have told : sample = ⟨peer.position.coordinate, peer.position.error, sample.roundTrip⟩ := by
        rw [← remote, ← error]
      have pinged {result : Except Failure (Vivaldi.Sample Binary64)}
          (sampled : Sampled peer update result) :
          Pinged peer update (echoRounds now.node.settings) echoed result := by
        rw [Pinged, if_pos enough]
        exact sampled
      simp only [keeps_run_bind, keeps_run_perform]
      refine keeps_report trivial fun reported waited => ?_
      have gone : reported.mine.gone := by
        rw [waited.mine]
        exact gone
      cases update with
      | false =>
          refine ⟨pinged ?_, gone⟩
          rw [Sampled, if_neg fun both => Bool.noConfusion both.1]
          exact ⟨sample.roundTrip, usable, congrArg _ told⟩
      | true =>
          rw [if_pos rfl, keeps_run_bind]
          refine keeps_observe usable ?_ ?_
          · intro finite predicted node
            refine ⟨pinged ?_, gone⟩
            rw [Sampled, if_neg (fun refused => refused.2 (remote ▸ finite))]
            exact ⟨sample.roundTrip, usable, congrArg _ told⟩
          · intro infinite node
            refine ⟨pinged ?_, gone⟩
            rw [Sampled, if_pos ⟨rfl, remote ▸ infinite⟩]

end Caller

/-- Settings that can be used name the number of bytes themselves. -/
theorem echoRounds_eq {settings : Settings} (valid : settings.validate = .ok settings) :
    echoRounds settings = settings.pingTries.toNat := by
  obtain ⟨some, most⟩ := (Settings.validate_eq_ok_iff.mp valid).tries
  have positive : settings.pingTries.toNat ≠ 0 := fun zero => some (UInt64.toNat_inj.mp zero)
  have bounded : settings.pingTries.toNat ≤ 256 := most
  rw [echoRounds]
  omega

/-- A ping between two nodes comes to its end, however their steps follow each other. The node that
echoes ends without an error. The ping goes well if the other node sends back as many bytes as it
sends; otherwise it finds the stream closed. -/
theorem ping_concludes (caller callee : Node)
    (callerValid : caller.settings.validate = .ok caller.settings)
    (calleeValid : callee.settings.validate = .ok callee.settings) (address : SocketAddress)
    (update : Bool) (stream : StreamId) :
    Concludes true (fun result answer _ => answer = .ok () ∧
        Pinged callee update caller.settings.pingTries.toNat callee.settings.pingTries.toNat result)
      (.start (ping address update).run caller
        (closing stream (dispatch .vivaldi stream none)).run callee) := by
  have orderly : Orderly
      (protocol (place callee) (echoRounds caller.settings) (echoRounds callee.settings)) true
      (fun result after => Pinged callee update (echoRounds caller.settings)
        (echoRounds callee.settings) result ∧ after.mine.gone)
      (fun (answer : Except Failure Unit) after => answer = .ok () ∧ after.mine.gone) :=
    ⟨protocol_lawful _ _ _, protocol_free _ _ _, fun _ _ holds => holds.2, fun _ _ holds => holds.2⟩
  have calling := @keeps_ping (echoRounds callee.settings) ⟨caller, .fresh, .fresh⟩ callee address
    update rfl
  have called := @keeps_serving (echoRounds caller.settings) stream ⟨callee, .fresh, .fresh⟩ rfl
  rw [← echoRounds_eq callerValid, ← echoRounds_eq calleeValid]
  refine (orderly.concludes calling called).mono fun result answer after completed => ?_
  obtain ⟨⟨_, _, pinged, _⟩, ⟨_, _, served, _⟩⟩ :=
    completed.sound.ends completed.caller completed.callee
  exact ⟨served, pinged⟩

section Unequal

/-- A node that counts so many bytes of a ping. -/
def counting (number : Nat) (tries : UInt64) : Node :=
  Node.start { Settings.brisk with pingTries := tries } (.numbered number) ⟨0⟩ .last .none none

/-- A ping between two such nodes. -/
abbrev encounter (caller callee : Node) :
    Talk (Except Failure (Vivaldi.Sample Binary64)) (Except Failure Unit) :=
  .start (ping callee.record.address true).run caller
    (closing ⟨0⟩ (dispatch .vivaldi ⟨0⟩ none)).run callee

theorem ping_concludes_counting :
    (counting 0 2).settings.validate = .ok (counting 0 2).settings ∧
      (counting 1 4).settings.validate = .ok (counting 1 4).settings ∧
      Concludes true (fun result answer _ => answer = .ok () ∧ ∃ sample, result = .ok sample)
        (encounter (counting 0 2) (counting 1 4)) := by
  refine ⟨rfl, rfl, ?_⟩
  refine (ping_concludes (counting 0 2) (counting 1 4) rfl rfl (.ofNumber 1) true ⟨0⟩).mono
    fun result answer after ends => ⟨ends.1, ?_⟩
  have pinged := ends.2
  rw [Pinged, if_pos (by decide), Sampled, if_neg (by decide +kernel)] at pinged
  obtain ⟨roundTrip, -, same⟩ := pinged
  exact ⟨_, same⟩

/-- A node that counts one byte more than the other one waits for it in vain. -/
theorem ping_cut_off : ¬ ∀ (caller callee : Node) (address : SocketAddress) (update : Bool)
    (stream : StreamId), caller.settings.validate = .ok caller.settings →
    callee.settings.validate = .ok callee.settings →
    (∃ tries, callee.settings = { caller.settings with pingTries := tries }) →
    Concludes true (fun result answer _ => answer = .ok () ∧ ∃ sample, result = .ok sample)
      (.start (ping address update).run caller
        (closing stream (dispatch .vivaldi stream none)).run callee) := by
  intro always
  let caller := counting 0 2
  let callee := counting 1 1
  have concludes := always caller callee callee.record.address true ⟨0⟩ rfl rfl ⟨1, rfl⟩
  let ending := (encounter caller callee).play ⟨0⟩ 32
  have asked : ending.caller.result? = some (.error (.wire (.stream .endInNumber))) := by
    decide +kernel
  have served : ending.callee.result? = some (.ok ()) := by decide +kernel
  obtain ⟨-, sample, good⟩ := concludes.ends (steps_play true ⟨0⟩ 32 _)
    (Side.done_of_result? asked) (Side.done_of_result? served)
  cases good

end Unequal

end Overlay.Node.Echoing
