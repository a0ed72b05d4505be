import Overlay.Document.Toml.Parser
import Overlay.Settings.Slot
import Overlay.SocketAddress.Parser

/-!
Settings from a document with tables: the tunables and the addresses of well-known nodes.

A document that is malformed, or has a value of the wrong kind, is refused before any of its
values is looked at; then come the addresses, and last the tunables as a whole.
-/

set_option autoImplicit false

namespace Overlay.Settings

open Document (Value Fields)

/-- The fields of one table of a document; a missing table has none. -/
def section? (document : Fields) (table : String) (keys : List String) (least : Nat) :
    Option Fields :=
  match document.get? table with
  | some value => value.fields? keys least
  | none => some []

/-- The tables that hold tunables. -/
def tables : List String := ["node", "gossip", "vivaldi", "cluster", "bootstrap"]

/-- The keys of a table in order; the addresses of well-known nodes come first in theirs. -/
def keysOf (table : String) : List String :=
  (if table = "bootstrap" then ["nodes"] else [])
    ++ (Slot.all.filter (·.table == table)).map (·.key)

/-- Reads the tunables of one table. -/
def readTable (document : Fields) (settings : Settings) (table : String) : Option Settings := do
  let keys := keysOf table
  let fields ← section? document table keys keys.length
  (Slot.all.filter (·.table == table)).foldlM
    (fun settings slot => slot.readFrom .toml slot.key fields settings) settings

/-- The tunables of a document, with the standard ones where it has none. -/
def ofDocument? (document : Fields) : Option Settings :=
  tables.foldlM (readTable document) standard

/-- The texts that a document names as addresses of well-known nodes. -/
def bootstrapTexts? (document : Fields) : Option (List String) := do
  let keys := keysOf "bootstrap"
  let fields ← section? document "bootstrap" keys keys.length
  match fields.get? "nodes" with
  | some value => (← value.list?).mapM Value.text?
  | none => pure []

/-- An address in a document. -/
def address (field text : String) : Except SettingsFault SocketAddress :=
  match SocketAddress.ofText? text with
  | some address => .ok address
  | none => .error (.invalid field (text ++ ": invalid socket address syntax"))

/-- A document or value that cannot be understood. -/
def malformed : SettingsFault := .malformed "not a settings document"

/-- The fields of a document. -/
def document (text : String) : Except SettingsFault Fields :=
  match Document.Toml.parse? text with
  | some fields => .ok fields
  | none => .error malformed

end Settings

/-- The tunables of a document, and the well-known nodes it names. -/
structure Plan where
  settings : Settings
  bootstrap : List SocketAddress
deriving DecidableEq, Inhabited, Repr

namespace Plan

open Settings

/-- The plan that the fields of a document give. -/
def ofFields (fields : Document.Fields) : Except SettingsFault Plan := do
  match ofDocument? fields, bootstrapTexts? fields with
  | some settings, some texts => do
    let bootstrap ← texts.mapM (address "bootstrap.nodes")
    pure ⟨← settings.validate, bootstrap⟩
  | _, _ => throw malformed

/-- The plan that the text of a document gives. -/
def parse (text : String) : Except SettingsFault Plan := do ofFields (← document text)

end Plan

/-- Everything that one node needs to know to run. -/
structure NodePlan where
  /-- Where the node accepts connections. -/
  listen : SocketAddress
  /-- Where other nodes should connect to, if that is another address. -/
  advertised : Option SocketAddress
  cluster : String
  /-- Milliseconds between two reports. -/
  reportInterval : UInt64
  bootstrap : List SocketAddress
  settings : Settings
deriving DecidableEq, Inhabited, Repr

namespace NodePlan

open Settings Document

/-- The node's own keys, with their types not yet looked at. -/
structure Own where
  listen : Option String
  advertised : Option String
  cluster : Option String
  reportInterval : Option UInt64
deriving Inhabited, Repr

/-- A field that may be missing; nothing if its value is of the wrong kind. -/
def optional {α : Type} (fields : Fields) (key : String) (read : Value → Option α) :
    Option (Option α) :=
  match fields.get? key with
  | some value => (read value).map some
  | none => some none

/-- The node's own keys in its table. -/
def own? (document : Fields) : Option Own := do
  let keys := ["listen_addr", "public_addr", "cluster_name", "stats_interval_ms"]
  let fields ← section? document "node" keys keys.length
  pure {
    listen := ← optional fields "listen_addr" Value.text?
    advertised := ← optional fields "public_addr" Value.text?
    cluster := ← optional fields "cluster_name" Value.text?
    reportInterval := ← optional fields "stats_interval_ms" Value.word64? }

/-- What a node listens on unless told otherwise. -/
def defaultListen : SocketAddress := .ofOctets 0 0 0 0 7946

/-- What holds where nothing is set. -/
def standard : NodePlan :=
  { listen := defaultListen
    advertised := none
    cluster := "grid"
    reportInterval := 15000
    bootstrap := []
    settings := Settings.standard }

/-- A plan that can be run, or the first reason why not. -/
def validate (plan : NodePlan) : Except SettingsFault NodePlan :=
  if plan.cluster.isEmpty then .error (.invalid "node.cluster_name" "must not be empty")
  else if plan.reportInterval = 0 then
    .error (.invalid "node.stats_interval_ms" "must be positive")
  else match plan.settings.fault? with
    | some fault => .error fault
    | none => .ok plan

/-- The plan that the text of a document gives. The tunables are looked at before the node's own
addresses, and those before the rest. -/
def parse (text : String) : Except SettingsFault NodePlan := do
  let fields ← document text
  match own? fields with
  | none => throw malformed
  | some own => do
    let plan ← Plan.ofFields fields
    let listen ← match own.listen with
      | some text => address "node.listen_addr" text
      | none => pure standard.listen
    let advertised ← own.advertised.mapM (address "node.public_addr")
    validate {
      listen, advertised
      cluster := own.cluster.getD standard.cluster
      reportInterval := own.reportInterval.getD standard.reportInterval
      bootstrap := plan.bootstrap
      settings := plan.settings }

end NodePlan

/-- How the bytes of a settings file are refused before they are read as a document. -/
def Settings.unreadableText : SettingsFault :=
  .unreadable "stream did not contain valid UTF-8"

/-- The fault of a settings file that is not there. -/
def Settings.missingFile : SettingsFault :=
  .unreadable "No such file or directory (os error 2)"

/-- The text of a settings file. -/
def Settings.fileText (bytes : List UInt8) : Except SettingsFault String :=
  match String.fromUTF8? ⟨bytes.toArray⟩ with
  | some text => .ok text
  | none => .error Settings.unreadableText

end Overlay
