import CounterPolling.Proofs.Group.Discovery
import CounterPolling.Proofs.Group.Interfaces
import CounterPolling.Proofs.Group.Search

/-!
# What a registration asks

A registration of counters or of meter buckets looks things up, makes one search for what can be
read, and then tries to place its objects with bulk reads. It may give up before the search. Main
statements: `StatsGroup.perform_along` and `MeterGroup.perform_along`, by which in every branch the
questions and what is known afterwards are those of such a registration.
-/

namespace CounterPolling

namespace Event

/-- The capability list was asked for. -/
def isCapabilities : Event → Bool
  | answered (.capabilities ..) _ => true
  | _ => false

/-- Something was looked up that is no counter: the switch of an object, or attributes. -/
def isLookUp : Event → Bool
  | answered (.switchOf _) _ | answered (.attributes ..) _ => true
  | _ => false

/-- Rows were read in bulk. -/
def isBulkRead : Event → Bool
  | answered (.bulkRead ..) _ => true
  | _ => false

theorem isCapabilities_of_isLookUp {event : Event} (h : event.isLookUp = true) :
    event.isCapabilities = false := by
  cases event with
  | handedOut out => rfl
  | answered request answer => cases request <;> first | rfl | cases h

theorem isCapabilities_of_isBulkRead {event : Event} (h : event.isBulkRead = true) :
    event.isCapabilities = false := by
  cases event with
  | handedOut out => rfl
  | answered request answer => cases request <;> first | rfl | cases h

end Event

/-- The command registers objects. -/
def GroupCommand.registers : GroupCommand → Bool
  | add .. | addMany .. => true
  | _ => false

namespace GroupContent

/-- The family of what a group polls. -/
def family : GroupContent → CounterFamily
  | stats family | attributes family => family
  | meterBuckets => .meterBucketStat

/-- The numbers of the known counters that a list of names asks for. -/
def requested (content : GroupContent) (names : List String) : List Int :=
  CounterId.raws (content.family.requested names)

/-- The questions by which a counter is tried with an object as the example: it is read there by
itself, and perhaps cleared, or read for the first bucket of the object. -/
inductive Tries : GroupContent → ObjectId → Int → List Event → Prop
  | read {family : CounterFamily} {object : ObjectId} {raw : Int} {kind : ObjectKind}
    {answer : Except DriverError (List UInt64)} :
    Tries (stats family) object raw [.answered (.read kind object [raw]) answer]
  | clear {family : CounterFamily} {object : ObjectId} {raw : Int} {kind : ObjectKind}
    {values : List UInt64} {answer : Except DriverError Unit} :
    Tries (stats family) object raw
      [.answered (.read kind object [raw]) (.ok values),
        .answered (.clear kind object [raw]) answer]
  | bucket {object : ObjectId} {raw : Int} {home : ObjectId} {mode : ReadMode}
    {answer : Except DriverError BulkFill} :
    Tries meterBuckets object raw
      [.answered (.bulkRead .meterBucket [.bucket home object 0] [raw] mode) answer]

/-- The questions by which objects are placed once it is known what can be read: bulk reads for
counters, and at most one for meter buckets, of all buckets of the object. -/
inductive Places : GroupContent → ObjectId → List Event → Prop
  | nothing {content : GroupContent} {object : ObjectId} : Places content object []
  | together {family : CounterFamily} {object : ObjectId} {asked : List Event} :
    (∀ event ∈ asked, event.isBulkRead = true) → Places (stats family) object asked
  | buckets {object home : ObjectId} {count : Nat} {raws : List Int} {mode : ReadMode}
    {answer : Except DriverError BulkFill} :
    Places meterBuckets object
      [.answered (.bulkRead .meterBucket (eniBuckets home object count) raws mode) answer]

/-- Questions are those of a registration: what is looked up, one search, which tries nothing but
counters that the registration asks for, and what places the objects. -/
def Registers (content : GroupContent) (names : List String) (search : Search)
    (asked : List Event) : Prop :=
  ∃ object lookUps searching placing, asked = lookUps ++ searching ++ placing ∧
    (∀ event ∈ lookUps, event.isLookUp = true) ∧
    search.Puts object content.family.kind (content.Tries object) searching ∧
    content.Places object placing ∧ ∀ raw ∈ search.tried, raw ∈ content.requested names

/-- How many registrations a command makes. Objects that are added together are one registration,
but interfaces are registered one after the other. -/
def registrations : GroupContent → GroupCommand → Nat
  | meterBuckets, .addMany vids rids _ _ => (vids.zip rids).length
  | _, .add .. | _, .addMany .. => 1
  | _, _ => 0

theorem registrations_eq_one {content : GroupContent} (hcontent : content ≠ meterBuckets)
    {command : GroupCommand} (h : command.registers = true) :
    content.registrations command = 1 := by
  cases command with
  | add vid rid names asked => cases content <;> rfl
  | addMany vids rids names asked =>
    cases content with
    | meterBuckets => exact absurd rfl hcontent
    | _ => rfl
  | _ => cases h

/-- The searches that a command makes, told by its questions: one for each registration in turn,
and none for another command, which does not ask for capability lists. -/
inductive Makes (content : GroupContent) (command : GroupCommand) :
    List Search → List Event → Prop
  | each {searches : List Search} {asked : List Event} : command.registers = true →
    searches.length = content.registrations command →
    InTurn (content.Registers command.names) searches asked → Makes content command searches asked
  | none {asked : List Event} : command.registers = false →
    (∀ event ∈ asked, event.isCapabilities = false) → Makes content command [] asked

/-- A registration makes one search, and knows afterwards what the search found out. -/
def Advances (content : GroupContent) (spec : GroupSpec) (names : List String)
    (known : Knowledge) (asked : List Event) (found : Knowledge) : Prop :=
  ∃ search, content.Registers names search asked ∧ Pursuit spec known [search] found

variable {content : GroupContent} {spec : GroupSpec} {names : List String}
  {known found : Knowledge}

/-- A registration may look things up and give up. -/
theorem advances_idle {asked : List Event} (h : ∀ event ∈ asked, event.isLookUp = true) :
    content.Advances spec names known asked known := by
  refine ⟨.idle, ⟨default, asked, [], [], by simp, h, ⟨[], [], rfl, rfl, .nil⟩, .nothing, ?_⟩,
    .idle (.nil known)⟩
  exact fun raw hraw => absurd hraw List.not_mem_nil

/-- A registration that gets as far as its search makes that one. -/
theorem advances_search {object : ObjectId} {search : Search}
    {lookUps searching placing : List Event} (hlookUps : ∀ event ∈ lookUps, event.isLookUp = true)
    (hputs : search.Puts object content.family.kind (content.Tries object) searching)
    (hleads : search.Leads spec (content.requested names) (known.onRegistration spec) found)
    (hplacing : content.Places object placing) :
    content.Advances spec names known (lookUps ++ searching ++ placing) found := by
  refine ⟨search, ⟨object, lookUps, searching, placing, rfl, hlookUps, hputs, hplacing, ?_⟩,
    .one hleads⟩
  exact fun raw hraw => ((hleads.mem_tried_iff raw).mp hraw).2.1

end GroupContent

/-- Reading what is asked for puts no question. -/
theorem readRequested_along (family : CounterFamily) (names : List String) :
    (readRequested family names).Along fun asked requested =>
      asked = [] ∧ requested = family.requested names := by
  have hsilent : (Dialogue.each (fun name => Dialogue.report (.unknownCounter family name))
      (family.unknownNames names)).AsksOnly fun _ => False :=
    Dialogue.asksOnly_each (fun _ => Dialogue.asksOnly_output _) _
  refine Dialogue.Along.bind hsilent fun asked _ hasked => ⟨?_, rfl⟩
  rw [List.append_nil]
  exact List.eq_nil_iff_forall_not_mem.mpr hasked

/-- A trial is one bulk read. -/
theorem tryBulkRead_along (kind : ObjectKind) (keys : List RowKey) (ids : List Int)
    (mode : ReadMode) :
    (tryBulkRead kind keys ids mode).Along fun asked _ =>
      ∃ answer, asked = [.answered (.bulkRead kind keys ids mode) answer] := by
  unfold tryBulkRead
  rw [Dialogue.along_bind, Dialogue.along_question]
  intro answer
  cases answer <;> exact ⟨_, rfl⟩

theorem asksOnly_tryBulkRead (kind : ObjectKind) (keys : List RowKey) (ids : List Int)
    (mode : ReadMode) :
    (tryBulkRead kind keys ids mode).AsksOnly fun event => event.isBulkRead = true := by
  refine (tryBulkRead_along kind keys ids mode).mono ?_
  rintro _ _ ⟨answer, rfl⟩ event hevent
  rw [List.mem_singleton.mp hevent]
  rfl

namespace StatsGroup

variable {family : CounterFamily} {g : StatsGroup family}

/-- A counter is tried by one read, and in the mode that clears by a read and a clear. -/
theorem attempt_along (g : StatsGroup family) (rid : ObjectId) (mode : ReadMode)
    (id : CounterId family) :
    (g.attempt rid mode id).Along fun asked _ =>
      (GroupContent.stats family).Tries rid id.raw asked := by
  unfold attempt
  rw [Dialogue.along_bind, Dialogue.along_question]
  intro answer
  cases answer with
  | error error => exact .read
  | ok values =>
    cases mode with
    | read => exact .read
    | readAndClear =>
      dsimp only
      rw [Dialogue.along_bind, Dialogue.along_question]
      intro answer
      cases answer <;> exact .clear

/-- Finding out what can be read is one search. -/
theorem discover_along (g : StatsGroup family) (rid : ObjectId) (names : List String)
    (mode : ReadMode) :
    (g.discover rid names mode).Along fun asked found => ∃ search : Search,
      search.Puts rid family.kind ((GroupContent.stats family).Tries rid) asked ∧
        search.Leads g.settings.spec ((GroupContent.stats family).requested names)
          (g.discovery.knowledge.onRegistration g.settings.spec) found.1.discovery.knowledge := by
  rw [discover_eq]
  refine (readRequested_along family names).bind ?_
  rintro _ _ ⟨rfl, rfl⟩
  refine (Discovery.refresh_along g.settings rid mode (g.attempt_along rid mode) _
    g.discovery).bind fun asked discovery hsearch => ?_
  rw [Dialogue.along_pure, List.append_nil]
  exact hsearch

theorem asksOnly_trial (g : StatsGroup family) (registration : Registration family) :
    (g.trial registration).AsksOnly fun event => event.isBulkRead = true :=
  (asksOnly_tryBulkRead _ _ _ _).bind fun _ => Dialogue.asksOnly_pure _

theorem asksOnly_trySharesTogether (g : StatsGroup family) (mode : ReadMode)
    (vids : List ObjectId) (keys : List RowKey) (shares : List (Share family)) :
    (g.trySharesTogether mode vids keys shares).AsksOnly fun event => event.isBulkRead = true := by
  induction shares with
  | nil => exact Dialogue.asksOnly_pure _
  | cons share shares ih =>
    refine (asksOnly_tryBulkRead _ _ _ _).bind fun outcome => ?_
    cases outcome with
    | error error => exact Dialogue.asksOnly_pure _
    | ok statuses => exact ih.bind fun _ => Dialogue.asksOnly_pure _

theorem asksOnly_decideEach (g : StatsGroup family) (ids : List (CounterId family))
    (own : Option ReadMode) (alone : List ObjectId) (objects : List (ObjectId × ObjectId)) :
    (g.decideEach ids own alone objects).AsksOnly fun event => event.isBulkRead = true := by
  induction objects with
  | nil => exact Dialogue.asksOnly_pure _
  | cons object rest ih =>
    rw [decideEach]
    split
    · exact (g.asksOnly_trial _).bind fun _ => ih.bind fun _ => Dialogue.asksOnly_pure _
    · exact (Dialogue.asksOnly_pure true).bind fun _ => ih.bind fun _ => Dialogue.asksOnly_pure _

/-- What a registration found out stands when it asks nothing more than bulk reads. -/
theorem discover_bind_along {rid : ObjectId} {names : List String} {mode : ReadMode}
    {decide : StatsGroup family × List (CounterId family) → Dialogue (Decision family)}
    (hasks : ∀ found, (decide found).AsksOnly fun event => event.isBulkRead = true)
    (hknown : ∀ found, (decide found).Always fun decision =>
      decision.discovery = found.1.discovery) :
    (g.discover rid names mode >>= decide).Along fun asked decision =>
      (GroupContent.stats family).Advances g.settings.spec names g.discovery.knowledge asked
        decision.discovery.knowledge := by
  refine (g.discover_along rid names mode).bind fun searching found hsearch => ?_
  obtain ⟨search, hputs, hleads⟩ := hsearch
  refine (Dialogue.Along.and (hasks found) (hknown found).along).mono ?_
  rintro placing decision ⟨hplacing, hdecision⟩
  rw [hdecision]
  have hnone : ∀ event ∈ ([] : List Event), event.isLookUp = true :=
    fun event hevent => absurd hevent List.not_mem_nil
  exact GroupContent.advances_search hnone hputs hleads (.together hplacing)

theorem decideAdd_along (g : StatsGroup family) (vid rid : ObjectId) (names : List String)
    (asked : Option ReadMode) :
    (g.decideAdd vid rid names asked).Along fun questions decision =>
      (GroupContent.stats family).Advances g.settings.spec names g.discovery.knowledge questions
        decision.discovery.knowledge := by
  refine discover_bind_along (fun found => ?_) fun found => ?_
  · dsimp only
    split
    · exact (Dialogue.asksOnly_output _).bind fun _ => Dialogue.asksOnly_pure _
    · exact (g.asksOnly_trial _).bind fun _ => Dialogue.asksOnly_pure _
  · dsimp only
    split
    · rfl
    · exact Dialogue.always_bind_of_forall fun _ => rfl

theorem decideAddMany_along (g : StatsGroup family) (vids rids : List ObjectId)
    (names : List String) (asked : Option ReadMode) :
    (g.decideAddMany vids rids names asked).Along fun questions decision =>
      (GroupContent.stats family).Advances g.settings.spec names g.discovery.knowledge questions
        decision.discovery.knowledge := by
  have hnone : ∀ event ∈ ([] : List Event), event.isLookUp = true :=
    fun event hevent => absurd hevent List.not_mem_nil
  unfold decideAddMany
  split
  · exact GroupContent.advances_idle hnone
  · split
    · exact GroupContent.advances_idle hnone
    · refine discover_bind_along (fun found => ?_) fun found => ?_
      · dsimp only
        split
        · exact (Dialogue.asksOnly_output _).bind fun _ => Dialogue.asksOnly_pure _
        · refine (g.asksOnly_trySharesTogether _ _ _ _).bind fun alone => ?_
          exact (g.asksOnly_decideEach _ _ alone _).bind fun _ => Dialogue.asksOnly_pure _
      · dsimp only
        split
        · rfl
        · refine Dialogue.always_bind_of_forall fun _ => ?_
          exact Dialogue.always_bind_of_forall fun _ => rfl

/-- A registration makes one search. -/
theorem perform_along (g : StatsGroup family) {command : GroupCommand}
    (h : command.registers = true) :
    (g.perform command).Along fun asked after =>
      (GroupContent.stats family).Advances g.settings.spec command.names g.discovery.knowledge
        asked after.discovery.knowledge := by
  cases command with
  | add vid rid names asked =>
    rw [perform, add_eq]
    refine (g.decideAdd_along vid rid names asked).bind fun questions decision hadvances => ?_
    rw [Dialogue.along_pure, List.append_nil, discovery_carryOut]
    exact hadvances
  | addMany vids rids names asked =>
    rw [perform, addMany_eq]
    refine (g.decideAddMany_along vids rids names asked).bind fun questions decision hadvances => ?_
    rw [Dialogue.along_pure, List.append_nil, discovery_carryOut]
    exact hadvances
  | _ => cases h

end StatsGroup

namespace MeterGroup

variable {g : MeterGroup}

/-- A counter is tried by one bulk read, of the first bucket. -/
theorem attempt_along (g : MeterGroup) (home rid : ObjectId) (id : BucketCounter) :
    (g.attempt home rid id).Along fun asked _ =>
      GroupContent.meterBuckets.Tries rid id.raw asked := by
  refine (tryBulkRead_along _ _ _ _).bind ?_
  rintro _ trial ⟨answer, rfl⟩
  exact .bucket

/-- The number of buckets is looked up, and nothing is found out about counters. -/
theorem askBucketCount_along (g : MeterGroup) (home : ObjectId) :
    (g.askBucketCount home).Along fun asked found =>
      (∀ event ∈ asked, event.isLookUp = true) ∧ found.1.settings = g.settings ∧
        found.1.discovery = g.discovery := by
  unfold askBucketCount
  split
  · exact ⟨fun event hevent => absurd hevent List.not_mem_nil, rfl, rfl⟩
  · rw [Dialogue.along_bind, Dialogue.along_question]
    intro answer
    have hlookUp : ∀ event ∈ [Event.answered (.attributes .switch home bucketCountIds) answer],
        event.isLookUp = true := by
      intro event hevent
      rw [List.mem_singleton.mp hevent]
      rfl
    cases answer with
    | error error => exact ⟨hlookUp, rfl, rfl⟩
    | ok values =>
      dsimp only
      split <;> exact ⟨hlookUp, rfl, rfl⟩

/-- An interface is placed by one bulk read, of all of its buckets. -/
theorem place_along (g : MeterGroup) (home vid rid : ObjectId) (ids : List BucketCounter)
    (count : Nat) :
    (g.place home vid rid ids count).Along fun asked after =>
      GroupContent.meterBuckets.Places rid asked ∧ after.discovery = g.discovery := by
  refine (tryBulkRead_along _ _ _ _).bind ?_
  rintro _ trial ⟨answer, rfl⟩
  cases trial with
  | error error => exact ⟨.buckets, rfl⟩
  | ok statuses =>
    dsimp only
    split
    · exact ⟨.buckets, rfl⟩
    · exact ⟨.buckets, rfl⟩

/-- A registration of an interface with buckets makes one search, and may look up things before. -/
theorem addWithBuckets_along (g : MeterGroup) (home vid rid : ObjectId) (names : List String)
    (count : Nat) {lookUps : List Event} (hlookUps : ∀ event ∈ lookUps, event.isLookUp = true) :
    (g.addWithBuckets home vid rid names count).Along fun asked after =>
      GroupContent.meterBuckets.Advances g.settings.spec names g.discovery.knowledge
        (lookUps ++ asked) after.discovery.knowledge := by
  refine (readRequested_along _ names).bind ?_
  rintro _ _ ⟨rfl, rfl⟩
  refine (Discovery.refresh_along g.settings rid g.settings.mode (g.attempt_along home rid) _
    g.discovery).bind fun searching discovery hsearch => ?_
  obtain ⟨search, hputs, hleads⟩ := hsearch
  have hadvances : ∀ {placing}, GroupContent.meterBuckets.Places rid placing →
      GroupContent.meterBuckets.Advances g.settings.spec names g.discovery.knowledge
        (lookUps ++ ([] ++ (searching ++ placing))) discovery.knowledge := by
    intro placing hplacing
    rw [List.nil_append, ← List.append_assoc]
    exact GroupContent.advances_search hlookUps hputs hleads hplacing
  dsimp only
  split
  · exact hadvances .nothing
  · refine (place_along _ home vid rid _ count).mono ?_
    rintro placing after ⟨hplacing, hafter⟩
    rw [hafter, discovery_untrack]
    exact hadvances hplacing

/-- A registration of an interface makes one search. -/
theorem add_along (g : MeterGroup) (vid rid : ObjectId) (names : List String) :
    (g.add vid rid names).Along fun asked after =>
      GroupContent.meterBuckets.Advances g.settings.spec names g.discovery.knowledge asked
        after.discovery.knowledge := by
  rw [add_eq, Dialogue.along_bind, Dialogue.along_question]
  intro home
  refine (g.askBucketCount_along home).bind ?_
  rintro asked ⟨known, count?⟩ ⟨hasked, hsettings, hdiscovery⟩
  have hlookUps : ∀ event ∈ Event.answered (.switchOf rid) home :: asked,
      event.isLookUp = true := List.forall_mem_cons.mpr ⟨rfl, hasked⟩
  dsimp only at hsettings hdiscovery ⊢
  rw [← hsettings, ← hdiscovery]
  split
  · exact known.addWithBuckets_along home vid rid names _ hlookUps
  · refine GroupContent.advances_idle ?_
    simpa using hlookUps

/-- Interfaces that are registered one after the other make one search each. -/
theorem carry_add_along (g : MeterGroup) (objects : List (ObjectId × ObjectId))
    (names : List String) :
    (Dialogue.carry (fun g object => g.add object.1 object.2 names) g objects).Along
      fun asked after => ∃ searches : List Search, searches.length = objects.length ∧
        InTurn (GroupContent.meterBuckets.Registers names) searches asked ∧
          Pursuit g.settings.spec g.discovery.knowledge searches after.discovery.knowledge := by
  induction objects generalizing g with
  | nil => exact ⟨[], rfl, .nil, .nil _⟩
  | cons object rest ih =>
    have hsettings := (g.add_always object.1 object.2 names).mono fun after ⟨home, houtcome⟩ =>
      houtcome.settings_eq
    refine ((g.add_along object.1 object.2 names).and hsettings.along).bind ?_
    rintro block known ⟨⟨search, hregisters, hpursuit⟩, hknown⟩
    refine (ih known).mono ?_
    rintro asked after ⟨searches, hlength, hturn, hlater⟩
    rw [hknown] at hlater
    exact ⟨search :: searches, congrArg (· + 1) hlength, .cons hregisters hturn,
      hpursuit.append hlater⟩

/-- Registrations make one search each. -/
theorem perform_along (g : MeterGroup) {command : GroupCommand} (h : command.registers = true) :
    (g.perform command).Along fun asked after => ∃ searches : List Search,
      searches.length = GroupContent.meterBuckets.registrations command ∧
        InTurn (GroupContent.meterBuckets.Registers command.names) searches asked ∧
        Pursuit g.settings.spec g.discovery.knowledge searches after.discovery.knowledge := by
  cases command with
  | add vid rid names asked =>
    refine (g.add_along vid rid names).mono ?_
    rintro asked after ⟨search, hregisters, hpursuit⟩
    exact ⟨[search], rfl, .one hregisters, hpursuit⟩
  | addMany vids rids names asked => exact g.carry_add_along (vids.zip rids) names
  | _ => cases h

end MeterGroup

/-- Registering an object with a group of attributes asks nothing. -/
theorem AttributeGroup.asksOnly_add {family : CounterFamily} (g : AttributeGroup family)
    (vid rid : ObjectId) (names : List String) : (g.add vid rid names).AsksOnly fun _ => False := by
  refine (readRequested_along family names).bind ?_
  rintro _ _ ⟨rfl, rfl⟩
  dsimp only
  split
  · exact (Dialogue.asksOnly_output _).bind fun _ => Dialogue.asksOnly_pure g
  · exact Dialogue.asksOnly_pure _

end CounterPolling
