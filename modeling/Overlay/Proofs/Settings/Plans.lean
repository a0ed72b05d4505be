import Mathlib.Data.Finset.Insert
import Overlay.Proofs.Settings
import Overlay.Proofs.Settings.Spelling

/-!
The two readers of one document.

A plan of everything that a node needs to know shares its settings and its well-known nodes with a
plan of the tunables (`NodePlan.shared`). Where the node's own keys can be used, both readers find
the same there, or the same fault (`NodePlan.shared_parse`). For a document that spells some of the
settings this is what it spells (`parse_spelled`).
-/

set_option autoImplicit false

namespace Overlay

namespace Settings

open Document (Value Fields)

variable {document : Fields}

/-- The node's own keys can be used where they are there: the addresses can be read, the cluster has
a name, and the time between reports is not zero. -/
structure OwnKeys (document : Fields) : Prop where
  listen : ∀ value, valueAt? document ("node", "listen_addr") = some value →
    ∃ text address, value = .text text ∧ SocketAddress.ofText? text = some address
  advertised : ∀ value, valueAt? document ("node", "public_addr") = some value →
    ∃ text address, value = .text text ∧ SocketAddress.ofText? text = some address
  cluster : ∀ value, valueAt? document ("node", "cluster_name") = some value →
    ∃ name, value = .text name ∧ name ≠ ""
  reportInterval : ∀ value, valueAt? document ("node", "stats_interval_ms") = some value →
    ∃ interval : UInt64, value = .whole interval.toNat ∧ interval ≠ 0

end Settings

open Settings

variable {text : String} {document : Document.Fields} {plan : Plan}

/-- Where one step after another succeeds, each of them does. -/
theorem ok_of_bind {ε α β : Type} {first : Except ε α} {next : α → Except ε β} {result : β}
    (ends : first >>= next = .ok result) :
    ∃ value, first = .ok value ∧ next value = .ok result := by
  cases first with
  | error fault => cases ends
  | ok value => exact ⟨value, rfl, ends⟩

theorem Settings.eq_of_validate {settings checked : Settings}
    (passes : settings.validate = .ok checked) : checked = settings := by
  rw [validate] at passes
  split at passes
  · cases passes
  · exact (Except.ok.inj passes).symm

/-- A plan that is accepted can be used. -/
theorem Plan.validate_of_ofFields (made : Plan.ofFields document = .ok plan) :
    plan.settings.validate = .ok plan.settings := by
  rw [Plan.ofFields] at made
  split at made
  · obtain ⟨bootstrap, -, rest⟩ := ok_of_bind made
    obtain ⟨checked, passes, same⟩ := ok_of_bind rest
    obtain rfl := eq_of_validate passes
    cases same
    exact passes
  · cases made

theorem Plan.parse_eq (decoded : Settings.document text = .ok document) :
    Plan.parse text = Plan.ofFields document := by
  rw [Plan.parse, decoded]
  rfl

theorem Plan.validate_of_parse (accepted : Plan.parse text = .ok plan) :
    plan.settings.validate = .ok plan.settings := by
  obtain ⟨document, -, made⟩ := ok_of_bind accepted
  exact validate_of_ofFields made

namespace NodePlan

/-- What a plan of everything has in common with a plan of the tunables. -/
def shared (plan : NodePlan) : Plan := ⟨plan.settings, plan.bootstrap⟩

theorem eq_of_validate {plan checked : NodePlan} (passes : plan.validate = .ok checked) :
    checked = plan ∧ plan.settings.fault? = none := by
  rw [validate] at passes
  split at passes
  · cases passes
  · split at passes
    · cases passes
    · split at passes
      · cases passes
      · next usable => exact ⟨(Except.ok.inj passes).symm, usable⟩

/-- The steps of reading a plan once the node's own keys were read. -/
theorem parse_eq {own : Own} (decoded : Settings.document text = .ok document)
    (read : own? document = some own) :
    NodePlan.parse text = Plan.ofFields document >>= fun plan =>
      own.listen.elim (.ok standard.listen) (address "node.listen_addr") >>= fun listen =>
        own.advertised.mapM (address "node.public_addr") >>= fun advertised =>
          NodePlan.validate {
            listen, advertised
            cluster := own.cluster.getD standard.cluster
            reportInterval := own.reportInterval.getD standard.reportInterval
            bootstrap := plan.bootstrap
            settings := plan.settings } := by
  rw [NodePlan.parse, decoded]
  change pure document >>= _ = _
  rw [pure_bind, read]
  obtain ⟨listen, advertised, cluster, interval⟩ := own
  cases listen with
  | none => rfl
  | some text => rfl

theorem validate_of_parse {plan : NodePlan} (accepted : NodePlan.parse text = .ok plan) :
    plan.settings.validate = .ok plan.settings := by
  obtain ⟨document, decoded, rest⟩ := ok_of_bind accepted
  cases read : own? document with
  | none => simp only [read, reduceCtorEq] at rest
  | some own =>
      rw [parse_eq decoded read] at accepted
      obtain ⟨tunables, -, rest⟩ := ok_of_bind accepted
      obtain ⟨listen, -, rest⟩ := ok_of_bind rest
      obtain ⟨advertised, -, rest⟩ := ok_of_bind rest
      obtain ⟨rfl, usable⟩ := eq_of_validate rest
      exact validate_eq_ok_iff.mpr (fault?_eq_none_iff.mp usable)

/-- What is said of every value at a key holds of what is read there, if anything is. -/
theorem optional_of_forall {α : Type} {fields : Document.Fields} {key : String}
    {read : Document.Value → Option α} {good : α → Prop}
    (each : ∀ value, fields.get? key = some value → ∃ item, read value = some item ∧ good item) :
    ∃ found, optional fields key read = some found ∧ ∀ item, found = some item → good item := by
  rw [optional]
  cases there : fields.get? key with
  | none => exact ⟨none, rfl, nofun⟩
  | some value =>
      obtain ⟨item, same, good⟩ := each value there
      refine ⟨some item, by simp [same], ?_⟩
      rintro _ ⟨⟩
      exact good

/-- Own keys that can be used, as they are read. -/
structure Own.Usable (own : Own) : Prop where
  listen : ∀ text, own.listen = some text → ∃ place, SocketAddress.ofText? text = some place
  advertised : ∀ text, own.advertised = some text → ∃ place, SocketAddress.ofText? text = some place
  cluster : ∀ name, own.cluster = some name → name ≠ ""
  reportInterval : ∀ interval, own.reportInterval = some interval → interval ≠ 0

theorem own?_usable (hasTables : HasTables document) (keys : OwnKeys document) :
    ∃ own, own? document = some own ∧ own.Usable := by
  have known : "node" ∈ tables := by decide
  have place {key : String} (each : ∀ value, valueAt? document ("node", key) = some value →
      ∃ text place, value = .text text ∧ SocketAddress.ofText? text = some place) :
      ∃ found, optional (fieldsAt document "node") key Document.Value.text? = some found ∧
        ∀ text, found = some text → ∃ place, SocketAddress.ofText? text = some place := by
    refine optional_of_forall fun value there => ?_
    obtain ⟨text, place, rfl, reads⟩ := each value there
    exact ⟨text, rfl, place, reads⟩
  obtain ⟨listen, listenRead, listenGood⟩ := place keys.listen
  obtain ⟨advertised, advertisedRead, advertisedGood⟩ := place keys.advertised
  obtain ⟨cluster, clusterRead, clusterGood⟩ :
      ∃ found, optional (fieldsAt document "node") "cluster_name" Document.Value.text? =
        some found ∧ ∀ name, found = some name → name ≠ "" := by
    refine optional_of_forall fun value there => ?_
    obtain ⟨name, rfl, named⟩ := keys.cluster value there
    exact ⟨name, rfl, named⟩
  obtain ⟨interval, intervalRead, intervalGood⟩ :
      ∃ found, optional (fieldsAt document "node") "stats_interval_ms" Document.Value.word64? =
        some found ∧ ∀ interval, found = some interval → interval ≠ 0 := by
    refine optional_of_forall fun value there => ?_
    obtain ⟨interval, rfl, positive⟩ := keys.reportInterval value there
    exact ⟨interval, word64?_whole interval, positive⟩
  refine ⟨⟨listen, advertised, cluster, interval⟩, ?_,
    listenGood, advertisedGood, clusterGood, intervalGood⟩
  simp [own?, section?_eq hasTables known, listenRead, advertisedRead, clusterRead, intervalRead]

theorem Own.Usable.exists_listen {own : Own} (usable : own.Usable) :
    ∃ place, own.listen.elim (.ok standard.listen) (address "node.listen_addr") = .ok place := by
  cases named : own.listen with
  | none => exact ⟨standard.listen, rfl⟩
  | some text =>
      obtain ⟨place, reads⟩ := usable.listen text named
      exact ⟨place, address_eq reads⟩

theorem Own.Usable.exists_advertised {own : Own} (usable : own.Usable) :
    ∃ place, own.advertised.mapM (address "node.public_addr") = .ok place := by
  cases named : own.advertised with
  | none => exact ⟨none, rfl⟩
  | some text =>
      obtain ⟨place, reads⟩ := usable.advertised text named
      refine ⟨some place, ?_⟩
      rw [Option.mapM_some, address_eq reads]
      rfl

theorem Own.Usable.named {own : Own} (usable : own.Usable) :
    ¬ (own.cluster.getD standard.cluster).isEmpty := by
  cases there : own.cluster with
  | none => decide
  | some name => simpa using usable.cluster name there

theorem Own.Usable.timed {own : Own} (usable : own.Usable) :
    own.reportInterval.getD standard.reportInterval ≠ 0 := by
  cases there : own.reportInterval with
  | none => decide
  | some interval => exact usable.reportInterval interval there

/-- Where the node's own keys can be used, both readers agree on what they share. -/
theorem shared_parse (decoded : Settings.document text = .ok document)
    (hasTables : HasTables document) (keys : OwnKeys document) :
    (NodePlan.parse text).map shared = Plan.parse text := by
  obtain ⟨own, read, usable⟩ := own?_usable hasTables keys
  rw [parse_eq decoded read, Plan.parse_eq decoded]
  cases made : Plan.ofFields document with
  | error fault => rfl
  | ok plan =>
      have passes := fault?_eq_none_iff.mpr (validate_eq_ok_iff.mp (Plan.validate_of_ofFields made))
      obtain ⟨listen, listenRead⟩ := usable.exists_listen
      obtain ⟨advertised, advertisedRead⟩ := usable.exists_advertised
      rw [listenRead, advertisedRead]
      change Except.map shared (NodePlan.validate _) = _
      rw [NodePlan.validate, if_neg usable.named, if_neg usable.timed, passes]
      rfl

end NodePlan

namespace Settings

open Document (Fields)

/-- A document that spells any of the given settings, and addresses of well-known nodes, is accepted
just where the given settings where they are spelled and the standard ones elsewhere can be used; it
gives these settings, and the addresses in their order. With own keys of the node that can be used,
the reader of everything that a node needs to know finds the same in it. And whatever document
either reader accepts, its settings can be used. -/
theorem parse_spelled (text : String) :
    (∀ document, Settings.document text = .ok document →
      ∀ chosen given nodes, (∀ address ∈ nodes, address.flow = 0) →
        Spells chosen given nodes document →
          (∀ plan, Plan.parse text = .ok plan ↔
            (mixed chosen given).validate = .ok (mixed chosen given) ∧
              plan = ⟨mixed chosen given, nodes⟩) ∧
          (OwnKeys document → (NodePlan.parse text).map NodePlan.shared = Plan.parse text)) ∧
    (∀ plan, Plan.parse text = .ok plan → plan.settings.validate = .ok plan.settings) ∧
    (∀ plan, NodePlan.parse text = .ok plan → plan.settings.validate = .ok plan.settings) := by
  refine ⟨?_, fun _ => Plan.validate_of_parse, fun _ => NodePlan.validate_of_parse⟩
  intro document decoded chosen given nodes plain spells
  refine ⟨fun plan => ?_, NodePlan.shared_parse decoded spells.hasTables⟩
  rw [Plan.parse_eq decoded, ofFields_spells spells plain]
  cases passes : (mixed chosen given).validate with
  | error fault => exact iff_of_false nofun nofun
  | ok checked =>
      obtain rfl := eq_of_validate passes
      exact ⟨fun same => ⟨rfl, (Except.ok.inj same).symm⟩, fun ⟨_, same⟩ => same ▸ rfl⟩

/-- Two intervals of one name in different tables, one well-known node, and the name of the node's
own cluster. -/
def paced : String :=
  "[node]\ncluster_name = \"edge\"\n[gossip]\ninterval_ms = 50\n[vivaldi]\ninterval_ms = 70\n" ++
    "[bootstrap]\nnodes = [\"[fe80::1%5]:7946\"]\n"

/-- The well-known node of `paced`, in the zone of its fifth link. -/
def pacedNode : SocketAddress :=
  .v6 (BitVec.ofNat 128 0xfe800000000000000000000000000001) 7946 0 5

/-- What stands in `paced`. -/
def pacedFields : Fields :=
  [("node", .table [("cluster_name", .text "edge")]),
    ("gossip", .table [("interval_ms", .whole 50)]),
    ("vivaldi", .table [("interval_ms", .whole 70)]),
    ("bootstrap", .table [("nodes", .list [.text "[fe80::1%5]:7946"])])]

theorem parse_spelled_paced :
    Plan.parse paced =
        .ok ⟨{ standard with gossipInterval := 50, vivaldiInterval := 70 }, [pacedNode]⟩ ∧
      (NodePlan.parse paced).map NodePlan.shared = Plan.parse paced := by
  let given : Settings := { brisk with vivaldiInterval := 70 }
  have decoded : Settings.document paced = .ok pacedFields := by decide +kernel
  have plain : ∀ address ∈ [pacedNode], address.flow = 0 := by
    simp [pacedNode, SocketAddress.flow]
  have spells : Spells {.gossipInterval, .vivaldiInterval} given [pacedNode] pacedFields := by
    refine ⟨?_, fun setting => by cases setting <;> rfl, .inl ?_⟩
    · intro table known value found
      simp only [tables, List.mem_cons, List.not_mem_nil, or_false] at known
      rcases known with rfl | rfl | rfl | rfl | rfl <;> cases found <;> exact ⟨_, rfl⟩
    · have written : pacedNode.text = "[fe80::1%5]:7946" := by decide
      rw [List.map_singleton, written]
      rfl
  have keys : OwnKeys pacedFields := by
    refine ⟨nofun, nofun, ?_, nofun⟩
    rintro _ ⟨⟩
    exact ⟨"edge", rfl, by decide⟩
  have passes : (mixed {.gossipInterval, .vivaldiInterval} given).validate =
      .ok (mixed {.gossipInterval, .vivaldiInterval} given) := by
    decide
  have spelled := (parse_spelled paced).1 pacedFields decoded {.gossipInterval, .vivaldiInterval}
    given [pacedNode] plain spells
  exact ⟨(spelled.1 _).mpr ⟨passes, rfl⟩, spelled.2 keys⟩

end Settings

end Overlay
