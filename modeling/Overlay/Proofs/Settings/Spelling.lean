import Mathlib.Data.Finset.Defs
import Overlay.Proofs.SocketAddress.RoundTrip
import Overlay.Settings.Document

/-!
Documents that spell some of the settings.

A document may spell any of the settings, each under its own key of its own table, and the addresses
of well-known nodes. There is such a document for every choice of settings (`spells_sheet`). What is
read from one are the settings that it spells and the standard ones for the rest
(`ofDocument?_spells`), and the addresses in their order (`bootstrapTexts?_spells`). So a document is
accepted just where these settings can be used (`ofFields_spells`).
-/

set_option autoImplicit false

namespace Overlay.Settings

open Document (Value Fields)

/-- The settings of a node, each on its own. -/
inductive Setting
  | cacheSize
  | fallbackCacheSize
  | sendSize
  | gossipInterval
  | gossipRetry
  | bootstrapWindow
  | entryLifetime
  | algorithms
  | pingTries
  | vivaldiInterval
  | maxClusterSize
  | candidateTarget
  | clusterInterval
  | neighborPingInterval
  | sampleWindow
  | maxPingFailures
  | distanceMode
  | connectTimeout
  | maxMessageBytes
  | version
deriving DecidableEq

namespace Setting

/-- The table that a setting stands in, and its key there. -/
def place : Setting → String × String
  | .connectTimeout => ("node", "connect_timeout_ms")
  | .maxMessageBytes => ("node", "max_message_bytes")
  | .version => ("node", "protocol_version")
  | .cacheSize => ("gossip", "cache_size")
  | .fallbackCacheSize => ("gossip", "fallback_cache_size")
  | .sendSize => ("gossip", "send_size")
  | .gossipInterval => ("gossip", "interval_ms")
  | .gossipRetry => ("gossip", "retry")
  | .entryLifetime => ("gossip", "entry_ttl_ms")
  | .algorithms => ("gossip", "algorithms")
  | .pingTries => ("vivaldi", "ping_tries")
  | .vivaldiInterval => ("vivaldi", "interval_ms")
  | .maxClusterSize => ("cluster", "max_size")
  | .candidateTarget => ("cluster", "candidate_target")
  | .clusterInterval => ("cluster", "interval_ms")
  | .neighborPingInterval => ("cluster", "neighbor_ping_interval_ms")
  | .sampleWindow => ("cluster", "sample_window")
  | .maxPingFailures => ("cluster", "max_ping_failures")
  | .distanceMode => ("cluster", "distance_mode")
  | .bootstrapWindow => ("bootstrap", "window_ms")

/-- A setting as a document spells it. -/
def spelled (settings : Settings) : Setting → Value
  | .connectTimeout => .whole settings.connectTimeout.toNat
  | .maxMessageBytes => .whole settings.maxMessageBytes.toNat
  | .version => .whole settings.version.toNat
  | .cacheSize => .whole settings.cacheSize.toNat
  | .fallbackCacheSize => .whole settings.fallbackCacheSize.toNat
  | .sendSize => .whole settings.sendSize.toNat
  | .gossipInterval => .whole settings.gossipInterval.toNat
  | .gossipRetry => .flag settings.gossipRetry
  | .entryLifetime => .whole settings.entryLifetime.toNat
  | .algorithms => .list (settings.algorithms.map fun algorithm => .text algorithm.name)
  | .pingTries => .whole settings.pingTries.toNat
  | .vivaldiInterval => .whole settings.vivaldiInterval.toNat
  | .maxClusterSize => .whole settings.maxClusterSize.toNat
  | .candidateTarget => .whole settings.candidateTarget.toNat
  | .clusterInterval => .whole settings.clusterInterval.toNat
  | .neighborPingInterval => .whole settings.neighborPingInterval.toNat
  | .sampleWindow => .whole settings.sampleWindow.toNat
  | .maxPingFailures => .whole settings.maxPingFailures.toNat
  | .distanceMode => .text (Slot.modeName settings.distanceMode)
  | .bootstrapWindow => .whole settings.bootstrapWindow.toNat

end Setting

/-- The given settings for one that is chosen, and the standard ones for another. -/
def source (chosen : Finset Setting) (given : Settings) (setting : Setting) : Settings :=
  if setting ∈ chosen then given else standard

/-- The given settings where they are chosen, and the standard ones elsewhere. -/
def mixed (chosen : Finset Setting) (given : Settings) : Settings :=
  let source := source chosen given
  { cacheSize := (source .cacheSize).cacheSize
    fallbackCacheSize := (source .fallbackCacheSize).fallbackCacheSize
    sendSize := (source .sendSize).sendSize
    gossipInterval := (source .gossipInterval).gossipInterval
    gossipRetry := (source .gossipRetry).gossipRetry
    bootstrapWindow := (source .bootstrapWindow).bootstrapWindow
    entryLifetime := (source .entryLifetime).entryLifetime
    algorithms := (source .algorithms).algorithms
    pingTries := (source .pingTries).pingTries
    vivaldiInterval := (source .vivaldiInterval).vivaldiInterval
    maxClusterSize := (source .maxClusterSize).maxClusterSize
    candidateTarget := (source .candidateTarget).candidateTarget
    clusterInterval := (source .clusterInterval).clusterInterval
    neighborPingInterval := (source .neighborPingInterval).neighborPingInterval
    sampleWindow := (source .sampleWindow).sampleWindow
    maxPingFailures := (source .maxPingFailures).maxPingFailures
    distanceMode := (source .distanceMode).distanceMode
    connectTimeout := (source .connectTimeout).connectTimeout
    maxMessageBytes := (source .maxMessageBytes).maxMessageBytes
    version := (source .version).version }

/-- The fields of one table of a document; a missing table has none. -/
def fieldsAt (document : Fields) (table : String) : Fields :=
  match document.get? table with
  | some (.table fields) => fields
  | _ => []

/-- The value at a key of a table. -/
def valueAt? (document : Fields) (place : String × String) : Option Value :=
  (fieldsAt document place.1).get? place.2

/-- What stands under the name of a table is a table. -/
def HasTables (document : Fields) : Prop :=
  ∀ table ∈ tables, ∀ value, document.get? table = some value → ∃ fields, value = .table fields

/-- A document spells the chosen ones of the given settings and no others, and the addresses of
well-known nodes; without such addresses their key may be missing. Other keys and tables do not
matter. -/
structure Spells (chosen : Finset Setting) (given : Settings) (nodes : List SocketAddress)
    (document : Fields) : Prop where
  hasTables : HasTables document
  settings : ∀ setting : Setting, valueAt? document setting.place =
    if setting ∈ chosen then some (setting.spelled given) else none
  nodes : valueAt? document ("bootstrap", "nodes") =
      some (.list (nodes.map fun address => .text address.text)) ∨
    nodes = [] ∧ valueAt? document ("bootstrap", "nodes") = none

variable {chosen : Finset Setting} {given start result : Settings} {nodes : List SocketAddress}
  {document fields : Fields}

section Sheet

/-- The settings in the order of their tables. -/
def Setting.all : List Setting :=
  [.connectTimeout, .maxMessageBytes, .version,
    .cacheSize, .fallbackCacheSize, .sendSize, .gossipInterval, .gossipRetry, .entryLifetime,
    .algorithms,
    .pingTries, .vivaldiInterval,
    .maxClusterSize, .candidateTarget, .clusterInterval, .neighborPingInterval, .sampleWindow,
    .maxPingFailures, .distanceMode,
    .bootstrapWindow]

theorem Setting.mem_all (setting : Setting) : setting ∈ all := by
  cases setting <;> decide

/-- No two settings share a key of a table. -/
theorem Setting.place_injective : Function.Injective place := by
  have apart : ∀ first ∈ all, ∀ second ∈ all, first.place = second.place → first = second := by
    decide +kernel
  exact fun first second => apart first first.mem_all second second.mem_all

/-- The fields of one table that spell chosen settings. -/
def rows (chosen : Finset Setting) (given : Settings) (table : String) : Fields :=
  (Setting.all.filter fun setting => setting.place.1 = table ∧ setting ∈ chosen).map
    fun setting => (setting.place.2, setting.spelled given)

/-- The fields of one table, with the addresses in the table of well-known nodes. -/
def rowsWith (chosen : Finset Setting) (given : Settings) (nodes : List SocketAddress)
    (table : String) : Fields :=
  if table = "bootstrap" then
    ("nodes", .list (nodes.map fun address => .text address.text)) :: rows chosen given table
  else rows chosen given table

/-- A document that spells the chosen settings and the addresses, and nothing else. -/
def sheet (chosen : Finset Setting) (given : Settings) (nodes : List SocketAddress) : Fields :=
  tables.map fun table => (table, .table (rowsWith chosen given nodes table))

theorem find?_eq_some_of_unique {α : Type} {items : List α} {item : α} {good : α → Bool}
    (held : item ∈ items) (holds : good item) (unique : ∀ other, good other → other = item) :
    items.find? good = some item := by
  cases found : items.find? good with
  | none => exact absurd holds (List.find?_eq_none.mp found item held)
  | some other => rw [unique other (List.find?_some found)]

theorem get?_rows (setting : Setting) : (rows chosen given setting.place.1).get? setting.place.2 =
    if setting ∈ chosen then some (setting.spelled given) else none := by
  have only {other : Setting} (sameTable : other.place.1 = setting.place.1)
      (sameKey : other.place.2 = setting.place.2) : other = setting :=
    Setting.place_injective (Prod.ext sameTable sameKey)
  rw [Fields.get?, rows, List.find?_map, List.find?_filter, Option.map_map]
  by_cases held : setting ∈ chosen
  · rw [find?_eq_some_of_unique setting.mem_all (by simp [held]), if_pos held]
    · rfl
    · intro other good
      simp only [decide_eq_true_eq, Function.comp_apply, beq_iff_eq] at good
      exact only good.1.1 good.2
  · rw [List.find?_eq_none.mpr, if_neg held]
    · rfl
    · intro other _ good
      simp only [decide_eq_true_eq, Function.comp_apply, beq_iff_eq] at good
      exact held (only good.1.1 good.2 ▸ good.1.2)

theorem get?_sheet {table : String} (known : table ∈ tables) :
    (sheet chosen given nodes).get? table =
      some (.table (rowsWith chosen given nodes table)) := by
  rw [Fields.get?, sheet, List.find?_map, Option.map_map,
    find?_eq_some_of_unique known (by simp) fun other same => by simpa using same]
  rfl

theorem fieldsAt_sheet {table : String} (known : table ∈ tables) :
    fieldsAt (sheet chosen given nodes) table = rowsWith chosen given nodes table := by
  rw [fieldsAt, get?_sheet known]

/-- Any of the settings can be spelled, with any addresses. -/
theorem spells_sheet (chosen : Finset Setting) (given : Settings) (nodes : List SocketAddress) :
    Spells chosen given nodes (sheet chosen given nodes) where
  hasTables table known value found := by
    rw [get?_sheet known] at found
    exact ⟨_, (Option.some.inj found).symm⟩
  settings setting := by
    have known : setting.place.1 ∈ tables := by cases setting <;> decide
    have other : setting.place.2 ≠ "nodes" := by cases setting <;> decide
    rw [valueAt?, fieldsAt_sheet known, rowsWith, ← get?_rows]
    split
    · simp [Fields.get?, other.symm]
    · rfl
  nodes := by
    left
    rw [valueAt?, fieldsAt_sheet (by decide)]
    simp [rowsWith, Fields.get?]

end Sheet

theorem section?_eq (hasTables : HasTables document) {table : String} (known : table ∈ tables)
    (keys : List String) (least : Nat) : section? document table keys least =
      some (fieldsAt document table) := by
  rw [section?, fieldsAt]
  cases found : document.get? table with
  | none => rfl
  | some value =>
      obtain ⟨fields, rfl⟩ := hasTables table known value found
      rfl

/-- Where each item can be read from what is written of it, all of them can. -/
theorem mapM_map {m : Type → Type} [Monad m] [LawfulMonad m] {α β γ : Type} {items : List α}
    {write : α → β} {read : β → m γ} {meaning : α → γ}
    (reads : ∀ item ∈ items, read (write item) = pure (meaning item)) :
    (items.map write).mapM read = pure (items.map meaning) := by
  induction items with
  | nil => rfl
  | cons first rest ih =>
      have others := ih fun item held => reads item (List.mem_cons_of_mem _ held)
      simp only [List.map_cons, List.mapM_cons, reads first List.mem_cons_self, others, pure_bind]

section Slots

/-- What settings of a table are read one after the other. -/
def Reads (fields : Fields) (slots : List Slot) (start result : Settings) : Prop :=
  slots.foldlM (fun settings slot => slot.readFrom .toml slot.key fields settings) start =
    some result

theorem reads_nil : Reads fields [] start start := rfl

variable {slot : Slot} {slots : List Slot} {name table key : String} {setting : Setting}
  {value : Value}

theorem word64?_whole (number : UInt64) :
    (Value.whole number.toNat).word64? = some number := by
  have inside : number.toNat < UInt64.size := number.toNat_lt
  have below : (Value.whole number.toNat).below? UInt64.size = some number.toNat := if_pos inside
  simp [Value.word64?, below]

theorem word32?_whole (number : UInt32) :
    (Value.whole number.toNat).word32? = some number := by
  have inside : number.toNat < UInt32.size := number.toNat_lt
  have below : (Value.whole number.toNat).below? UInt32.size = some number.toNat := if_pos inside
  simp [Value.word32?, below]

/-- One slot reads what is spelled if it is there. If it is not, the setting has to be the standard
one still. -/
theorem Reads.cons (put : Settings → Settings) (spelled : fields.get? slot.key =
      if setting ∈ chosen then some value else none)
    (reads : slot.read .toml value start = some (put given)) (untouched : put standard = start)
    (others : Reads fields slots (put (source chosen given setting)) result) :
    Reads fields (slot :: slots) start result := by
  have first : slot.readFrom .toml slot.key fields start =
      some (put (source chosen given setting)) := by
    rw [Slot.readFrom, spelled, source]
    by_cases held : setting ∈ chosen
    · simpa only [held, ↓reduceIte] using reads
    · simp only [held, ↓reduceIte, untouched]
  rw [Reads, List.foldlM_cons, first]
  exact others

theorem Reads.word64 {get : Settings → UInt64} {set : UInt64 → Settings → Settings}
    (spelled : fields.get? key =
      if setting ∈ chosen then some (.whole (get given).toNat) else none)
    (untouched : set (get standard) start = start)
    (others : Reads fields slots (set (get (source chosen given setting)) start) result) :
    Reads fields (Slot.word64 name table key get set :: slots) start result := by
  refine Reads.cons (fun settings => set (get settings) start) spelled ?_ untouched others
  simp [Slot.word64, word64?_whole]

theorem Reads.word32 {get : Settings → UInt32} {set : UInt32 → Settings → Settings}
    (spelled : fields.get? key =
      if setting ∈ chosen then some (.whole (get given).toNat) else none)
    (untouched : set (get standard) start = start)
    (others : Reads fields slots (set (get (source chosen given setting)) start) result) :
    Reads fields (Slot.word32 name table key get set :: slots) start result := by
  refine Reads.cons (fun settings => set (get settings) start) spelled ?_ untouched others
  simp [Slot.word32, word32?_whole]

theorem Reads.flag {get : Settings → Bool} {set : Bool → Settings → Settings}
    (spelled : fields.get? key = if setting ∈ chosen then some (.flag (get given)) else none)
    (untouched : set (get standard) start = start)
    (others : Reads fields slots (set (get (source chosen given setting)) start) result) :
    Reads fields (Slot.flag name table key get set :: slots) start result :=
  Reads.cons (fun settings => set (get settings) start) spelled rfl untouched others

theorem Reads.algorithms (spelled : fields.get? "algorithms" =
      if setting ∈ chosen then some (Setting.algorithms.spelled given) else none)
    (untouched : { start with algorithms := standard.algorithms } = start)
    (others : Reads fields slots
      { start with algorithms := (source chosen given setting).algorithms } result) :
    Reads fields (Slot.algorithms :: slots) start result := by
  have names (algorithms : List Algorithm) :
      (algorithms.map fun algorithm => Value.text algorithm.name).mapM (Value.choice? .toml) =
        some (algorithms.map Algorithm.name) :=
    mapM_map fun _ _ => rfl
  have back (algorithms : List Algorithm) :
      (algorithms.map Algorithm.name).mapM Algorithm.ofName? = some algorithms := by
    refine (mapM_map fun algorithm _ => ?_).trans (congrArg some (List.map_id algorithms))
    cases algorithm <;> decide
  refine Reads.cons (fun settings => { start with algorithms := settings.algorithms })
    spelled ?_ untouched others
  simp [Slot.algorithms, Setting.spelled, Value.list?, names, back]

theorem Reads.distanceMode (spelled : fields.get? "distance_mode" =
      if setting ∈ chosen then some (Setting.distanceMode.spelled given) else none)
    (untouched : { start with distanceMode := standard.distanceMode } = start)
    (others : Reads fields slots
      { start with distanceMode := (source chosen given setting).distanceMode } result) :
    Reads fields (Slot.distanceMode :: slots) start result := by
  have back (mode : DistanceMode) : [DistanceMode.min, .mean].find?
      (Slot.modeName · == Slot.modeName mode) = some mode := by
    cases mode <;> decide
  refine Reads.cons (fun settings => { start with distanceMode := settings.distanceMode })
    spelled ?_ untouched others
  simp [Slot.distanceMode, Setting.spelled, Value.choice?, back]

end Slots

/-- What is read are the settings that the document spells, and the standard ones elsewhere. Each
setting is read once, so it is the standard one until then. -/
theorem ofDocument?_spells (spells : Spells chosen given nodes document) :
    ofDocument? document = some (mixed chosen given) := by
  have next (table : String) {others : List String} {start middle result : Settings}
      (known : table ∈ tables)
      (reads : Reads (fieldsAt document table) (Slot.all.filter (·.table == table)) start middle)
      (later : others.foldlM (readTable document) middle = some result) :
      (table :: others).foldlM (readTable document) start = some result := by
    have first : readTable document start table = some middle := by
      rw [readTable, section?_eq spells.hasTables known]
      exact reads
    rw [List.foldlM_cons, first]
    exact later
  have spelled := spells.settings
  exact next "node" (by decide)
      (.word64 (spelled .connectTimeout) rfl <| .word64 (spelled .maxMessageBytes) rfl <|
        .word32 (spelled .version) rfl reads_nil) <|
    next "gossip" (by decide)
      (.word64 (spelled .cacheSize) rfl <| .word64 (spelled .fallbackCacheSize) rfl <|
        .word64 (spelled .sendSize) rfl <| .word64 (spelled .gossipInterval) rfl <|
        .flag (spelled .gossipRetry) rfl <| .word64 (spelled .entryLifetime) rfl <|
        .algorithms (spelled .algorithms) rfl reads_nil) <|
    next "vivaldi" (by decide)
      (.word64 (spelled .pingTries) rfl <| .word64 (spelled .vivaldiInterval) rfl reads_nil) <|
    next "cluster" (by decide)
      (.word64 (spelled .maxClusterSize) rfl <| .word64 (spelled .candidateTarget) rfl <|
        .word64 (spelled .clusterInterval) rfl <| .word64 (spelled .neighborPingInterval) rfl <|
        .word64 (spelled .sampleWindow) rfl <| .word32 (spelled .maxPingFailures) rfl <|
        .distanceMode (spelled .distanceMode) rfl reads_nil) <|
    next "bootstrap" (by decide)
      (.word64 (spelled .bootstrapWindow) rfl reads_nil) rfl

/-- The texts of the addresses are read in their order. -/
theorem bootstrapTexts?_spells (spells : Spells chosen given nodes document) :
    bootstrapTexts? document = some (nodes.map SocketAddress.text) := by
  have texts : (nodes.map fun address => Value.text address.text).mapM Value.text? =
      some (nodes.map SocketAddress.text) :=
    mapM_map fun _ _ => rfl
  have known : "bootstrap" ∈ tables := by decide
  rw [bootstrapTexts?]
  simp only [section?_eq spells.hasTables known, Option.bind_eq_bind, Option.bind_some]
  rcases spells.nodes with there | ⟨rfl, missing⟩
  · rw [valueAt?] at there
    simp [there, Value.list?, texts]
  · rw [valueAt?] at missing
    simp [missing]

theorem address_eq {text field : String} {place : SocketAddress}
    (reads : SocketAddress.ofText? text = some place) : address field text = .ok place := by
  rw [address, reads]

theorem mapM_address (field : String) (plain : ∀ address ∈ nodes, address.flow = 0) :
    (nodes.map SocketAddress.text).mapM (address field) = .ok nodes := by
  refine (mapM_map fun place held => ?_).trans (congrArg Except.ok (List.map_id nodes))
  exact address_eq (SocketAddress.ofText?_text (plain place held))

theorem ofFields_spells (spells : Spells chosen given nodes document)
    (plain : ∀ address ∈ nodes, address.flow = 0) :
    Plan.ofFields document = (mixed chosen given).validate.map (Plan.mk · nodes) := by
  rw [Plan.ofFields, ofDocument?_spells spells, bootstrapTexts?_spells spells]
  simp only [mapM_address "bootstrap.nodes" plain]
  cases (mixed chosen given).validate with
  | error fault => rfl
  | ok settings => rfl

end Overlay.Settings
