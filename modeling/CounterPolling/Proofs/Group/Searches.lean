import CounterPolling.Proofs.Group.Registrations

/-!
# The searches in the life of a group

Only registrations search for what can be read; no other command asks for a capability list or finds
anything out. The searches of a history follow each other, so what is searched for over the whole
life of a group is bounded. Main statements: `Group.perform_searches`, what one command does, and
`Group.searches_bounded`, what all of them do.
-/

namespace CounterPolling

/-- No capability list is asked for. -/
abbrev Dialogue.AsksNoList {α : Type} (dialogue : Dialogue α) : Prop :=
  dialogue.AsksOnly fun event => event.isCapabilities = false

section Passes

variable {family : CounterFamily}

/-- A pass over a partition asks for no capability list if publishing does not. -/
theorem Partition.asksOnly_sweep (p : Partition family) (kind : ObjectKind) (mode : ReadMode)
    {publish : Reading → Dialogue Unit} (h : ∀ reading, (publish reading).AsksNoList) :
    (p.sweep kind mode publish).AsksNoList := by
  unfold sweep
  induction p.chunks with
  | nil => exact Dialogue.asksOnly_pure _
  | cons bounds rest ih =>
    have hread : (p.readChunk kind mode bounds).AsksNoList := by
      refine (Dialogue.asksOnly_question fun _ => rfl).bind fun answer => ?_
      cases answer with
      | error error => exact (Dialogue.asksOnly_output _).bind fun _ => Dialogue.asksOnly_pure _
      | ok fill => exact Dialogue.asksOnly_pure _
    rw [sweepChunks]
    refine hread.bind fun readings => (Dialogue.asksOnly_each h readings).bind fun _ => ?_
    exact ih.bind fun _ => Dialogue.asksOnly_pure _

theorem StatsGroup.asksOnly_poll (g : StatsGroup family) : g.poll.AsksNoList := by
  refine (Dialogue.asksOnly_each (fun entry => ?_) _).bind fun _ =>
    Dialogue.asksOnly_each (fun entry => ?_) _
  · refine (Dialogue.asksOnly_question fun _ => rfl).bind fun answer => ?_
    cases answer with
    | error error => exact Dialogue.asksOnly_output _
    | ok values =>
      dsimp only
      split
      · exact Dialogue.asksOnly_output _
      · cases g.settings.modeFor entry.2.mode with
        | read => exact Dialogue.asksOnly_output _
        | readAndClear =>
          refine (Dialogue.asksOnly_question fun _ => rfl).bind fun answer => ?_
          cases answer with
          | error error =>
            exact (Dialogue.asksOnly_output _).bind fun _ => Dialogue.asksOnly_output _
          | ok done => exact Dialogue.asksOnly_output _
  · have hsweep := entry.2.asksOnly_sweep g.kind (g.settings.modeFor entry.1.mode)
      (fun reading => Dialogue.asksOnly_output
        (.row reading.row.vid.text (rowFields entry.2.ids reading.values)))
    exact hsweep.bind fun _ => Dialogue.asksOnly_pure ()

theorem MeterGroup.asksOnly_poll (g : MeterGroup) : g.poll.AsksNoList := by
  refine Dialogue.asksOnly_each (fun entry => ?_) _
  refine (entry.2.asksOnly_sweep .meterBucket g.settings.mode fun reading => ?_).bind fun _ =>
    Dialogue.asksOnly_pure ()
  unfold publish
  split
  · exact Dialogue.asksOnly_pure ()
  · cases reading.row.key with
    | object id => exact Dialogue.asksOnly_pure ()
    | bucket home eni meterClass => exact Dialogue.asksOnly_output _

theorem AttributeGroup.asksOnly_pollObject (g : AttributeGroup family) (vid : ObjectId)
    (list : AttributeList family) : (g.pollObject vid list).AsksNoList := by
  refine (Dialogue.asksOnly_question fun _ => rfl).bind fun answer => ?_
  cases answer with
  | error error => exact Dialogue.asksOnly_output _
  | ok values =>
    dsimp only
    split <;> exact Dialogue.asksOnly_output _

end Passes

namespace AttributeGroup

variable {family : CounterFamily}

theorem settings_add_always (g : AttributeGroup family) (vid rid : ObjectId)
    (names : List String) :
    (g.add vid rid names).Always fun after => after.settings = g.settings := by
  refine (g.add_always vid rid names).mono ?_
  rintro after (⟨-, rfl⟩ | ⟨-, rfl⟩) <;> rfl

end AttributeGroup

/-- No command changes what the group is specified to be. -/
theorem MeterGroup.spec_perform (g : MeterGroup) (command : GroupCommand) :
    (g.perform command).Always fun after => after.settings.spec = g.settings.spec := by
  cases command with
  | add vid rid names asked =>
    refine (g.add_always vid rid names).mono fun after ⟨home, houtcome⟩ => ?_
    rw [houtcome.settings_eq]
  | addMany vids rids names asked =>
    refine Dialogue.Always.carry (fun before hbefore object _ => ?_) rfl
    refine (before.add_always object.1 object.2 names).mono fun after ⟨home, houtcome⟩ => ?_
    rw [houtcome.settings_eq, hbefore]
  | remove vid =>
    rw [perform, remove]
    split
    · exact congrArg GroupSettings.spec (g.settings_untrack vid)
    · exact Dialogue.always_bind_of_forall fun _ => rfl
  | runPlugins arguments => exact Dialogue.always_bind_of_forall fun _ => rfl
  | poll => exact Dialogue.always_bind_of_forall fun _ => rfl
  | _ => rfl

namespace Group

/-- What a group polls. -/
def content : Group → GroupContent
  | stats family _ => .stats family
  | attributes family _ => .attributes family
  | meterBuckets _ => .meterBuckets

/-- What a group has found out about counters; attributes are not searched for. -/
def knowledge : Group → Knowledge
  | stats _ g => g.discovery.knowledge
  | attributes .. => ⟨∅, ∅, false, false⟩
  | meterBuckets g => g.discovery.knowledge

theorem content_initial (settings : GroupSettings) :
    (initial settings).content = settings.spec.content := by
  unfold initial
  split <;> next h => exact h.symm

theorem asksOnly_runPlugins (group : Group) (arguments : List String) :
    (group.runPlugins arguments).AsksNoList := by
  unfold runPlugins
  dsimp only
  split
  · exact Dialogue.asksOnly_pure ()
  · exact Dialogue.asksOnly_each (fun _ => Dialogue.asksOnly_output _) _

/-- No pass asks for a capability list. -/
theorem asksOnly_poll (group : Group) : group.poll.AsksNoList := by
  cases group with
  | stats family g => exact g.asksOnly_poll
  | attributes family g => exact Dialogue.asksOnly_each (fun _ => g.asksOnly_pollObject _ _) _
  | meterBuckets g => exact g.asksOnly_poll

/-- Attributes are registered one after the other. -/
theorem attributes_addEach {family : CounterFamily} (g : AttributeGroup family)
    (objects : List (ObjectId × ObjectId)) (names : List String) (asked : Option ReadMode) :
    (attributes family g).addEach objects names asked = attributes family <$>
      Dialogue.carry (fun g object => g.add object.1 object.2 names) g objects :=
  Dialogue.carry_map (fun _ _ => rfl) g objects

/-- A command leaves a group what it is. -/
theorem perform_keeps (group : Group) (command : GroupCommand) :
    (group.perform command).Always fun after =>
      after.content = group.content ∧ after.settings.spec = group.settings.spec := by
  cases group with
  | stats family g =>
    rw [perform_stats, Dialogue.always_map]
    refine (g.perform_always command).mono ?_
    rintro after ⟨decision, -, rfl⟩
    exact ⟨rfl, g.spec_conclude decision command⟩
  | meterBuckets g =>
    rw [MeterGroup.perform_meterBuckets, Dialogue.always_map]
    refine (g.spec_perform command).mono fun after hspec => ⟨rfl, hspec⟩
  | attributes family g =>
    cases command with
    | add vid rid names asked =>
      rw [perform, add, Dialogue.always_map]
      exact (g.settings_add_always vid rid names).mono fun after hafter =>
        ⟨rfl, congrArg _ hafter⟩
    | addMany vids rids names asked =>
      rw [perform, addMany, attributes_addEach, Dialogue.always_map]
      have hcarry : (Dialogue.carry (fun g object => g.add object.1 object.2 names) g
          (vids.zip rids)).Always fun after => after.settings = g.settings :=
        Dialogue.Always.carry (fun reached hreached object _ =>
          (reached.settings_add_always _ _ _).mono fun after hafter => hafter.trans hreached) rfl
      exact hcarry.mono fun after hafter => ⟨rfl, congrArg _ hafter⟩
    | remove vid =>
      rw [perform, remove, AttributeGroup.remove, Dialogue.always_map]
      split
      · exact ⟨rfl, rfl⟩
      · exact Dialogue.always_bind_of_forall fun _ => ⟨rfl, rfl⟩
    | runPlugins arguments => exact Dialogue.always_bind_of_forall fun _ => ⟨rfl, rfl⟩
    | poll => exact Dialogue.always_bind_of_forall fun _ => ⟨rfl, rfl⟩
    | _ => exact ⟨rfl, rfl⟩

/-- A registration makes the searches that its questions show. -/
theorem perform_along_of_registers (group : Group) {command : GroupCommand}
    (h : command.registers = true) :
    (group.perform command).Along fun asked after => ∃ searches,
      group.content.Makes command searches asked ∧
        Pursuit group.settings.spec group.knowledge searches after.knowledge := by
  cases group with
  | stats family g =>
    rw [perform_stats, Dialogue.along_map]
    refine (g.perform_along h).mono ?_
    rintro asked after ⟨search, hregisters, hpursuit⟩
    have hcontent : GroupContent.stats family ≠ .meterBuckets := GroupContent.noConfusion
    have hone := (GroupContent.registrations_eq_one hcontent h).symm
    exact ⟨[search], .each h hone (.one hregisters), hpursuit⟩
  | meterBuckets g =>
    rw [MeterGroup.perform_meterBuckets, Dialogue.along_map]
    refine (g.perform_along h).mono ?_
    rintro asked after ⟨searches, hlength, hturn, hpursuit⟩
    exact ⟨searches, .each h hlength hturn, hpursuit⟩
  | attributes family g =>
    have hidle : ∀ {dialogue : Dialogue (AttributeGroup family)},
        dialogue.AsksOnly (fun _ => False) → (attributes family <$> dialogue).Along
          fun asked after => ∃ searches,
            (attributes family g).content.Makes command searches asked ∧
              Pursuit g.settings.spec (attributes family g).knowledge searches after.knowledge := by
      intro dialogue hdialogue
      rw [Dialogue.along_map]
      refine Dialogue.Along.mono hdialogue fun asked after hasked => ?_
      have hlookUps : ∀ event ∈ asked, event.isLookUp = true := fun event hevent =>
        (hasked event hevent).elim
      have hadvances : (GroupContent.attributes family).Advances g.settings.spec command.names
          (attributes family g).knowledge asked (attributes family g).knowledge :=
        GroupContent.advances_idle hlookUps
      obtain ⟨search, hregisters, hpursuit⟩ := hadvances
      have hcontent : GroupContent.attributes family ≠ .meterBuckets := GroupContent.noConfusion
      have hone := (GroupContent.registrations_eq_one hcontent h).symm
      exact ⟨[search], .each h hone (.one hregisters), hpursuit⟩
    cases command with
    | add vid rid names asked => exact hidle (g.asksOnly_add vid rid names)
    | addMany vids rids names asked =>
      rw [perform, addMany, attributes_addEach]
      exact hidle (Dialogue.asksOnly_carry (fun g _ => g.asksOnly_add _ _ names) _ _)
    | _ => cases h

/-- A change of prefixes finds nothing out. -/
theorem knowledge_regroup (group : Group) (prefixes : PrefixConfig) :
    (((group.withPrefixes prefixes).toOption).getD group).knowledge = group.knowledge := by
  cases group with
  | stats family g =>
    have hcommand : (GroupCommand.regroup prefixes).configures = true := rfl
    obtain ⟨-, hdiscovery, -⟩ := g.conclude_configure hcommand ⟨g.discovery, [], []⟩
    rw [withPrefixes]
    cases hrefused : g.withPrefixes prefixes with
    | error refusal => rfl
    | ok after =>
      rw [StatsGroup.conclude, hrefused] at hdiscovery
      exact congrArg Discovery.knowledge hdiscovery
  | _ => rfl

/-- A command that registers nothing asks for no capability list, and finds nothing out. -/
theorem perform_along_of_not_registers (group : Group) {command : GroupCommand}
    (h : command.registers = false) :
    (group.perform command).Along fun asked after =>
      (∀ event ∈ asked, event.isCapabilities = false) ∧ after.knowledge = group.knowledge := by
  have hnone : ∀ event ∈ ([] : List Event), event.isCapabilities = false :=
    fun event hevent => absurd hevent List.not_mem_nil
  have hunit : ∀ {dialogue : Dialogue Unit},
      dialogue.AsksNoList → (dialogue >>= fun _ => pure group).Along fun asked after =>
        (∀ event ∈ asked, event.isCapabilities = false) ∧ after.knowledge = group.knowledge := by
    intro dialogue hdialogue
    refine Dialogue.Along.bind hdialogue fun asked _ hasked => ⟨fun event hevent => ?_, rfl⟩
    rw [List.append_nil] at hevent
    exact hasked event hevent
  cases command with
  | remove vid =>
    cases group with
    | stats family g =>
      rw [perform, remove, Dialogue.along_map, StatsGroup.remove]
      split
      · exact ⟨hnone, congrArg Discovery.knowledge (g.discovery_untrack vid)⟩
      · exact ⟨hnone, rfl⟩
    | attributes family g =>
      rw [perform, remove, Dialogue.along_map, AttributeGroup.remove]
      split <;> exact ⟨hnone, rfl⟩
    | meterBuckets g =>
      rw [perform, remove, Dialogue.along_map, MeterGroup.remove]
      split
      · exact ⟨hnone, congrArg Discovery.knowledge (g.discovery_untrack vid)⟩
      · exact ⟨hnone, rfl⟩
  | regroup prefixes => exact ⟨hnone, group.knowledge_regroup prefixes⟩
  | runPlugins arguments => exact hunit (group.asksOnly_runPlugins arguments)
  | poll => exact hunit group.asksOnly_poll
  | add vid rid names asked => cases h
  | addMany vids rids names asked => cases h
  | _ => cases group <;> exact ⟨hnone, rfl⟩

/-- What a command searches for is told by its questions, and by what is known before it and
afterwards. -/
theorem perform_searches (group : Group) (command : GroupCommand) :
    (group.perform command).Along fun asked after => ∃ searches,
      group.content.Makes command searches asked ∧
        Pursuit group.settings.spec group.knowledge searches after.knowledge := by
  cases h : command.registers with
  | true => exact group.perform_along_of_registers h
  | false =>
    refine (group.perform_along_of_not_registers h).mono ?_
    rintro asked after ⟨hasked, hknown⟩
    exact ⟨[], .none h hasked, hknown ▸ .nil _⟩

end Group

section Counting

variable {content : GroupContent}

/-- Trying counters asks for no capability list. -/
theorem GroupContent.countP_tries {object : ObjectId} {tried : List Int} {asked : List Event}
    (h : InTurn (content.Tries object) tried asked) : asked.countP Event.isCapabilities = 0 := by
  induction h with
  | nil => rfl
  | cons hblock _ ih => cases hblock <;> simpa [Event.isCapabilities] using ih

/-- The capability list is asked for by two questions at most. -/
theorem Search.AsksForList.countP_le {search : Search} {object : ObjectId} {kind : ObjectKind}
    {asked : List Event} (h : search.AsksForList object kind asked) :
    asked.countP Event.isCapabilities ≤ if search.asks then 2 else 0 := by
  unfold AsksForList at h
  unfold asks
  cases hlist : search.list? with
  | none =>
    rw [hlist] at h
    rw [h]
    rfl
  | some outcome =>
    rw [hlist] at h
    obtain ⟨home, rest, rfl, hquestions⟩ := h
    cases hquestions with
    | atOnce _ => exact Nat.le_succ 1
    | again => exact Nat.le_refl 2

/-- A registration asks for the capability list by two questions at most, if its search does. -/
theorem GroupContent.Registers.countP_le {names : List String} {search : Search}
    {asked : List Event} (h : content.Registers names search asked) :
    asked.countP Event.isCapabilities ≤ if search.asks then 2 else 0 := by
  obtain ⟨object, lookUps, searching, placing, rfl, hlookUps, ⟨query, tries, rfl, hquery, htries⟩,
    hplacing, -⟩ := h
  have hlookUps' : lookUps.countP Event.isCapabilities = 0 :=
    List.countP_eq_zero.mpr fun event hevent =>
      Bool.eq_false_iff.mp (Event.isCapabilities_of_isLookUp (hlookUps event hevent))
  have hplacing' : placing.countP Event.isCapabilities = 0 := by
    cases hplacing with
    | nothing => rfl
    | buckets => rfl
    | together hbulk =>
      exact List.countP_eq_zero.mpr fun event hevent =>
        Bool.eq_false_iff.mp (Event.isCapabilities_of_isBulkRead (hbulk event hevent))
  simp only [List.countP_append, hlookUps', hplacing', countP_tries htries, Nat.zero_add,
    Nat.add_zero]
  exact hquery.countP_le

/-- A command asks for capability lists by two questions at most for each of its searches that
does. -/
theorem GroupContent.Makes.countP_le {command : GroupCommand} {searches : List Search}
    {asked : List Event} (h : content.Makes command searches asked) :
    asked.countP Event.isCapabilities ≤ 2 * searches.countP Search.asks := by
  cases h with
  | none _ hasked =>
    exact Nat.le_of_eq (List.countP_eq_zero.mpr fun event hevent =>
      Bool.eq_false_iff.mp (hasked event hevent))
  | each _ hlength hturn =>
    clear hlength
    induction hturn with
    | nil => exact Nat.zero_le _
    | @cons search searches block asked hblock _ ih =>
      have hfirst := hblock.countP_le
      rw [List.countP_append, List.countP_cons]
      split at hfirst
      · next hasks => rw [if_pos hasks]; omega
      · next hasks => rw [if_neg hasks]; omega

theorem countP_questionsOf (events : List Event) :
    (questionsOf events).countP Event.isCapabilities = events.countP Event.isCapabilities := by
  rw [questionsOf, List.countP_filter]
  refine List.countP_congr fun event _ => ?_
  cases event with
  | handedOut out => simp [Event.isCapabilities]
  | answered request answer => simp [Event.isAnswer]

end Counting

section Histories

/-- One command of a history of a group of any kind. -/
structure GroupTurn where
  before : Group
  command : GroupCommand
  events : List Event
  after : Group

namespace Group

/-- The turns of a list of commands against a switch, after a history of earlier events. -/
def turns (switch : Switch) : List GroupCommand → Group → List Event → List GroupTurn
  | [], _, _ => []
  | command :: rest, group, past =>
    let outcome := (group.perform command).run switch past
    ⟨group, command, outcome.events, outcome.value⟩ ::
      turns switch rest outcome.value (past ++ outcome.events)

/-- The searches of a history follow each other, turn by turn. -/
theorem turns_searches (switch : Switch) (commands : List GroupCommand) (group : Group)
    (past : List Event) : ∃ searches : List (List Search),
      List.Forall₂ (fun turn made =>
        group.content.Makes turn.command made (questionsOf turn.events))
        (turns switch commands group past) searches ∧
      (∀ turn ∈ turns switch commands group past, ∃ made,
        Pursuit group.settings.spec turn.before.knowledge made turn.after.knowledge) ∧
      ∃ final, Pursuit group.settings.spec group.knowledge searches.flatten final := by
  induction commands generalizing group past with
  | nil =>
    exact ⟨[], .nil, fun turn hturn => absurd hturn List.not_mem_nil, group.knowledge, .nil _⟩
  | cons command rest ih =>
    obtain ⟨made, hmakes, hpursuit⟩ := (group.perform_searches command).run switch past
    obtain ⟨hcontent, hspec⟩ := (group.perform_keeps command).value switch past
    rw [turns]
    generalize (group.perform command).run switch past = outcome at hmakes hpursuit hcontent hspec
    obtain ⟨later, hlater, hturns, final, hfinal⟩ := ih outcome.value (past ++ outcome.events)
    rw [hcontent] at hlater
    rw [hspec] at hturns hfinal
    exact ⟨made :: later, .cons hmakes hlater, List.forall_mem_cons.mpr ⟨⟨made, hpursuit⟩, hturns⟩,
      final, hpursuit.append hfinal⟩

/-- The turns of a history ask for capability lists by two questions at most for each search that
does. -/
theorem countP_turns_le {content : GroupContent} {turns : List GroupTurn}
    {searches : List (List Search)}
    (h : List.Forall₂ (fun turn made => content.Makes turn.command made (questionsOf turn.events))
      turns searches) :
    (turns.flatMap GroupTurn.events).countP Event.isCapabilities ≤
      2 * searches.flatten.countP Search.asks := by
  induction h with
  | nil => exact Nat.zero_le _
  | @cons turn made turns searches hmakes _ ih =>
    have hfirst := hmakes.countP_le
    rw [countP_questionsOf] at hfirst
    rw [List.flatMap_cons, List.countP_append, List.flatten_cons, List.countP_append]
    omega

/-- Over the whole life of a group of any kind, with any commands and any answers of the driver,
every registration makes one search, if any, and what is tried is asked for by the registration.

Unless the group finds out anew, only one search asks for the capability list, by two questions at
most; no counter is tried twice; from the search on that gets the list nothing is tried; and what
was found readable stays so. In a group that finds out anew a search tries no counter twice, and
none unless the capability list is not used or was not to be had. -/
theorem searches_bounded (settings : GroupSettings) (commands : List GroupCommand)
    (switch : Switch) (past : List Event) :
    let spec := settings.spec
    let turns := turns switch commands (initial settings) past
    ∃ searches : List (List Search),
      List.Forall₂ (fun turn made =>
        spec.content.Makes turn.command made (questionsOf turn.events)) turns searches ∧
      (spec.rediscovers = false →
        searches.flatten.countP Search.asks ≤ 1 ∧
        (turns.flatMap GroupTurn.events).countP Event.isCapabilities ≤ 2 ∧
        (searches.flatten.flatMap Search.tried).Nodup ∧
        (∀ done search later list, searches.flatten = done ++ search :: later →
          search.list? = some (.ok list) → ∀ other ∈ search :: later, other.tried = []) ∧
        ∀ turn ∈ turns, turn.before.knowledge.supported ⊆ turn.after.knowledge.supported) ∧
      (spec.rediscovers = true → ∀ search ∈ searches.flatten, search.tried.Nodup ∧
        (search.tried ≠ [] → spec.usesCapabilities = false ∨
          ∃ error, search.list? = some (.error error))) := by
  intro spec turns
  obtain ⟨searches, hmakes, hturns, final, hpursuit⟩ :=
    turns_searches switch commands (initial settings) past
  rw [content_initial] at hmakes
  rw [settings_initial] at hturns hpursuit
  refine ⟨searches, hmakes, fun hkeeps => ?_, fun hanew => hpursuit.tried_anew hanew⟩
  have honce := hpursuit.asks_once hkeeps
  have hcount := (countP_turns_le hmakes).trans (Nat.mul_le_mul_left 2 honce)
  refine ⟨honce, hcount, (hpursuit.tried_nodup hkeeps).1, ?_, ?_⟩
  · intro done search later list hsplit hlist
    exact hpursuit.tried_eq_nil_of_list hkeeps hsplit hlist
  · intro turn hturn
    obtain ⟨made, hmade⟩ := hturns turn hturn
    exact hmade.supported_subset hkeeps

/-- A driver without a capability list is asked for it with the first of two ports, and each of two
counters is tried once. -/
example :
    let settings := GroupSettings.initial
      (GroupSpec.stats "Port Counter" .portStat "PORT_COUNTER_ID_LIST" none) "PORTS"
    let commands := [
      .add 1 0x101 ["SAI_PORT_STAT_IF_IN_OCTETS"] none,
      .add 2 0x102 ["SAI_PORT_STAT_IF_IN_OCTETS", "SAI_PORT_STAT_IF_OUT_OCTETS"] none]
    let switch := Switch.unchanging (StatsGroup.rowFails (.object 0))
    let events := (turns switch commands (initial settings) []).flatMap GroupTurn.events
    events.countP Event.isCapabilities = 1 ∧
      (readsOf events).countP (fun event => !event.isBulkRead) = 2 := by
  decide +kernel

end Group

end Histories

end CounterPolling
