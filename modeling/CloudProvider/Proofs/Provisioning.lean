import CloudProvider.Proofs.Admission

/-! Providing a machine. What is submitted follows a plan of three: the machine is created, an image
with its agent's environment is attached to it, and it is started. The machine goes by the name that
the cloud has given to it by the end of the first, and the image is made between the first and the
second, from a document that says what the caller and the settings say. -/

namespace CloudProvider

open Json (Codec Value)

def Effect.isCommand : Effect → Bool
  | .run _ => true
  | _ => false

def History.commands (h : History) : History :=
  h.filter (·.effect.isCommand)

@[simp] theorem History.commands_append (a b : History) :
    commands (a ++ b) = commands a ++ commands b :=
  List.filter_append ..

theorem History.commands_cons_of_not {x : Exchange} (h : History)
    (other : x.effect.isCommand = false) : commands (x :: h) = commands h := by
  rw [commands, List.filter_cons_of_neg (by simp [other]), ← commands]

theorem Change.commands_deeds (c : Change) : c.deeds.commands = [] := by
  refine List.filter_eq_nil_iff.mpr fun x mem => ?_
  have called := c.isCall_of_mem mem
  revert called
  cases x.effect <;> simp [Effect.isCall, Effect.isCommand]

namespace Pipeline

/-- Null says no more than an object without members. -/
def stated : Value → Value
  | .null => .object []
  | v => v

def agentDocument (settings : AgentSettings) (o : VmOrder) (vm : VmId) : Value :=
  .object [
    ("agent_id", .string o.agentId),
    ("vm", .object [("name", .string "bosh-vm"), ("id", .string vm.text)]),
    ("mbus", .string settings.mbus),
    ("ntp", .array (settings.ntp.map .string)),
    ("networks", stated o.networks),
    ("env", stated o.env),
    ("disks", .object [("ephemeral", .string "1")]),
    ("blobstore", .object [
      ("provider", .string settings.blobstore.provider),
      ("options", .object settings.blobstore.options)])]

theorem orEmpty_eq_stated (v : Value) : AgentEnvironment.orEmpty v = stated v := by
  cases v <;> rfl

theorem encode_environment (settings : AgentSettings) (o : VmOrder) (vm : VmId) :
    AgentEnvironment.codec.encode (o.environment settings vm) =
      (agentDocument settings o vm).render := by
  have options : settings.blobstore.options.map (fun m => (m.1, Codec.value.toValue m.2)) =
      settings.blobstore.options := List.map_id' _
  have written : AgentEnvironment.codec.toValue (o.environment settings vm) =
      agentDocument settings o vm := by
    rw [agentDocument, ← orEmpty_eq_stated, ← orEmpty_eq_stated, ← options]
    rfl
  rw [Codec.encode, written]

def documentPath (directory : String) : String :=
  directory ++ "/env-dir" ++ "/env"

def imagePath (name directory : String) : String :=
  directory ++ "/" ++ name ++ ".iso"

def imaging (name directory : String) : Command :=
  ⟨"mkisofs", ["-o", imagePath name directory, documentPath directory]⟩

def prepared (name directory document : String) : History :=
  [⟨.freshName "agent-env", name⟩, ⟨.makeScratch name, .ok directory⟩,
    ⟨.makeDirectory (directory ++ "/env-dir"), .ok ()⟩,
    ⟨.writeFile (documentPath directory) (Text.Utf8.encode document), .ok ()⟩]

theorem prepared_calls (name directory document : String) :
    (prepared name directory document).calls = [] := rfl

/-- How the making of an image of the document comes to nothing: what has been done on this host by
then, and what the caller is told. -/
inductive ImageFailure (document : String) : History → Halt → Prop
  | homeless (name : String) (fault : Files.Fault) :
      ImageFailure document [⟨.freshName "agent-env", name⟩, ⟨.makeScratch name, .error fault⟩]
        (.failed (.io (.file fault)))
  | unprepared (name directory : String) (fault : Files.Fault) :
      ImageFailure document
        [⟨.freshName "agent-env", name⟩, ⟨.makeScratch name, .ok directory⟩,
          ⟨.makeDirectory (directory ++ "/env-dir"), .error fault⟩,
          ⟨.discardScratch directory, ()⟩]
        (.failed (.io (.file fault)))
  | unwritten (name directory : String) (fault : Files.Fault) :
      ImageFailure document
        [⟨.freshName "agent-env", name⟩, ⟨.makeScratch name, .ok directory⟩,
          ⟨.makeDirectory (directory ++ "/env-dir"), .ok ()⟩,
          ⟨.writeFile (documentPath directory) (Text.Utf8.encode document), .error fault⟩,
          ⟨.discardScratch directory, ()⟩]
        (.failed (.io (.file fault)))
  | unstarted (name directory : String) (fault : Files.Fault) :
      ImageFailure document
        (prepared name directory document ++
          [⟨.run (imaging name directory), .error fault⟩, ⟨.discardScratch directory, ()⟩])
        (.failed (.io (.file fault)))
  | unsuccessful (name directory : String) (output : CommandOutput)
      (failed : output.success = false) :
      ImageFailure document
        (prepared name directory document ++
          [⟨.run (imaging name directory), .ok output⟩, ⟨.discardScratch directory, ()⟩])
        (.failed (.command "mkisofs"
          ("Failed to generate ISO for agent settings: " ++ output.combined)))

namespace ImageFailure

variable {document : String} {deeds : History} {halt : Halt}

theorem calls_eq (h : ImageFailure document deeds halt) : deeds.calls = [] := by
  cases h <;> rfl

theorem commands_eq (h : ImageFailure document deeds halt) :
    deeds.commands = [] ∨ ∃ name directory reply, ∃ rest : History,
      deeds = prepared name directory document ++ ⟨.run (imaging name directory), reply⟩ :: rest ∧
      rest.commands = [] ∧ rest.calls = [] := by
  cases h with
  | homeless | unprepared | unwritten => exact .inl rfl
  | unstarted | unsuccessful => exact .inr ⟨_, _, _, _, rfl, rfl, rfl⟩

end ImageFailure

/-- The image is made once, if at all, and is worked with if and only if that has succeeded. -/
theorem does_withAgentImage {α : Type} {environment : AgentEnvironment} {work : String → Pipeline α}
    {deeds : History} {result : Except Halt α}
    (does : (withAgentImage environment work).Does deeds result) :
    (∃ halt, ImageFailure (AgentEnvironment.codec.encode environment) deeds halt ∧
      result = .error halt) ∨
    ∃ name directory output inner, output.success ∧
      (work (imagePath name directory)).Does inner result ∧
      deeds = prepared name directory (AgentEnvironment.codec.encode environment) ++
        ⟨.run (imaging name directory), .ok output⟩ :: inner ++
          [⟨.discardScratch directory, ()⟩] := by
  obtain ⟨name, ⟨fault, rfl, rfl⟩ | ⟨directory, _, packs, rfl⟩⟩ := does_withScratch_iff.mp does
  · exact .inl ⟨_, .homeless name fault, rfl⟩
  rw [does_perform_bind_iff] at packs
  obtain ⟨fault | ⟨⟩, _, packs, rfl⟩ := packs
  · obtain ⟨rfl, rfl⟩ := packs
    exact .inl ⟨_, .unprepared name directory fault, rfl⟩
  rw [orFault, pure_bind, does_perform_bind_iff] at packs
  obtain ⟨fault | ⟨⟩, _, packs, rfl⟩ := packs
  · obtain ⟨rfl, rfl⟩ := packs
    exact .inl ⟨_, .unwritten name directory fault, rfl⟩
  rw [orFault, pure_bind, does_perform_bind_iff] at packs
  obtain ⟨fault | output, inner, packs, rfl⟩ := packs
  · obtain ⟨rfl, rfl⟩ := packs
    exact .inl ⟨_, .unstarted name directory fault, rfl⟩
  rw [orFault, pure_bind] at packs
  split at packs
  · next failed =>
    obtain ⟨rfl, rfl⟩ := packs
    exact .inl ⟨_, .unsuccessful name directory output (by simpa using failed), rfl⟩
  · next success =>
    rw [does_emit_bind_iff] at packs
    exact .inr ⟨name, directory, output, inner, by simpa using success, packs, rfl⟩

/-- What is submitted in providing a machine that is named `vm`. -/
def provisioningPlan (s : Settings) (o : VmOrder) (vm : VmId) (iso : Upload) : List Submission :=
  [.createVm s.project
      { name := "bosh-vm"
        flavor := o.properties.flavor
        image := o.image
        disks := [⟨"boot-disk", "ephemeral-disk", o.properties.diskFlavor, o.properties.diskSizeGb,
          true, none, none⟩]
        affinities := []
        tags := [] },
    .attachIso vm iso,
    .operateVm vm ⟨"START_VM", []⟩]

/-- How a machine comes to be provided, and what is done if it does not. -/
structure Provisioning (s : Settings) (o : VmOrder) (vm : VmId) (deeds : History)
    (changes : List Change) (result : Except Halt VmId) : Prop where
  calls : deeds.calls = changes.flatMap Change.deeds
  planned : ∃ iso, changes.map Change.submission <+: provisioningPlan s o vm iso
  completed : ∀ former c latter, changes = former ++ c :: latter → latter ≠ [] →
    c.completed?.isSome
  /-- The name comes from the poll that has ended the first change. -/
  named : ∀ made, changes.head?.bind Change.completed? = some made → vm = ⟨made.entity.id⟩
  /-- The image is made behind the first change and before the second, of the agent's document. -/
  imaged : deeds.commands = [] ∧ changes.length ≤ 1 ∨
    ∃ create latter name directory reply, ∃ rest : History,
      changes = create :: latter ∧ create.completed?.isSome ∧
      deeds = create.deeds ++ prepared name directory (agentDocument s.agent o vm).render ++
        ⟨.run (imaging name directory), reply⟩ :: rest ∧
      rest.commands = [] ∧ rest.calls = latter.flatMap Change.deeds ∧
      ∀ attach ∈ latter.head?, ∃ output contents more,
        reply = .ok output ∧ output.success ∧
        attach.submission = .attachIso vm ⟨imagePath name directory, contents⟩ ∧
        rest = ⟨.readFile (imagePath name directory), contents⟩ :: attach.deeds ++ more
  returned : ∀ id, result = .ok id ↔
    id = vm ∧ vm.text ≠ "" ∧ changes.length = 3 ∧ (∀ c ∈ changes, c.completed?.isSome) ∧
      ∃ command output, ⟨.run command, .ok output⟩ ∈ deeds ∧ output.success
  /-- Nothing is done with a machine that has no name. -/
  nameless : ∀ made, changes.head?.bind Change.completed? = some made → made.entity.id = "" →
    changes.length = 1 ∧ deeds = changes.flatMap Change.deeds ∧
      result = .error (.failed (.cloud (.internal (.nameless made.id "a VM id"))))
  /-- Providing fails with its last change or behind its first, and there for want of a name or of an
  image. -/
  failed : ∀ halt, result = .error halt →
    (∃ former last, changes = former ++ [last] ∧ last.completed? = none ∧
      last.Yields s.policy (.error halt)) ∨
    ∃ create made, changes = [create] ∧ create.completed? = some made ∧
      (made.entity.id = "" ∨ ∃ inner, deeds = create.deeds ++ inner ∧
        ImageFailure (agentDocument s.agent o vm).render inner halt)

section Provisioning

variable {s : Settings} {o : VmOrder} {vm : VmId} {create : Change}

theorem called_of_completed {made : Task} (completed : create.completed? = some made)
    (called : vm = ⟨made.entity.id⟩) (other : Task) (found : create.completed? = some other) :
    vm = ⟨other.entity.id⟩ := by
  rw [called, Option.some.inj (completed.symm.trans found)]

theorem Provisioning.of_stopped {inner : History} {halt : Halt}
    (begun : create.submission = .createVm s.project o.newVm)
    (named : ∀ made, create.completed? = some made → vm = ⟨made.entity.id⟩)
    (ends : inner = [] ∧ create.Yields s.policy (.error halt) ∨
      ∃ made, create.completed? = some made ∧
        (made.entity.id = "" ∧ inner = [] ∧
          halt = .failed (.cloud (.internal (.nameless made.id "a VM id"))) ∨
        made.entity.id ≠ "" ∧ ImageFailure (agentDocument s.agent o vm).render inner halt)) :
    Provisioning s o vm (create.deeds ++ inner) [create] (.error halt) where
  calls := by
    have uncalled : inner.calls = [] := by
      rcases ends with ⟨rfl, -⟩ | ⟨made, -, ⟨-, rfl, -⟩ | ⟨-, failure⟩⟩
      · rfl
      · rfl
      · exact failure.calls_eq
    rw [History.calls_append, create.calls_deeds, uncalled, List.flatMap_singleton, List.append_nil]
  planned := ⟨⟨"", .ok []⟩, [_, _], by rw [List.map_singleton, begun]; rfl⟩
  completed former c latter parted more := by
    cases former <;> simp_all
  named := named
  imaged := by
    have unrun (none : inner.commands = []) : (create.deeds ++ inner).commands = [] := by
      rw [History.commands_append, create.commands_deeds, none, List.append_nil]
    rcases ends with ⟨rfl, -⟩ | ⟨made, completed, ⟨-, rfl, -⟩ | ⟨-, failure⟩⟩
    · exact .inl ⟨unrun rfl, Nat.le_refl 1⟩
    · exact .inl ⟨unrun rfl, Nat.le_refl 1⟩
    · rcases failure.commands_eq with none | ⟨name, directory, reply, rest, rfl, once, later⟩
      · exact .inl ⟨unrun none, Nat.le_refl 1⟩
      · exact .inr ⟨create, [], name, directory, reply, rest, rfl, by simp [completed],
          (List.append_assoc ..).symm, once, later, by simp⟩
  returned id := by simp
  nameless made completed unnamed := by
    have completed : create.completed? = some made := completed
    rcases ends with ⟨-, yields⟩ | ⟨other, found, ends⟩
    · rw [yields.completed?_eq] at completed
      cases completed
    · obtain rfl := Option.some.inj (completed.symm.trans found)
      obtain ⟨-, rfl, rfl⟩ | ⟨filled, -⟩ := ends
      · exact ⟨rfl, by simp, rfl⟩
      · exact absurd unnamed filled
  failed other same := by
    obtain rfl := Except.error.inj same
    rcases ends with ⟨-, yields⟩ | ⟨made, completed, ⟨unnamed, -⟩ | ⟨-, failure⟩⟩
    · exact .inl ⟨[], create, rfl, yields.completed?_eq, yields⟩
    · exact .inr ⟨create, made, rfl, completed, .inl unnamed⟩
    · exact .inr ⟨create, made, rfl, completed, .inr ⟨inner, rfl, failure⟩⟩

theorem commands_changes (changes : List Change) :
    History.commands (changes.flatMap Change.deeds) = [] := by
  induction changes with
  | nil => rfl
  | cons c rest ih => rw [List.flatMap_cons, History.commands_append, c.commands_deeds, ih]; rfl

theorem calls_changes (changes : List Change) :
    History.calls (changes.flatMap Change.deeds) = changes.flatMap Change.deeds := by
  induction changes with
  | nil => rfl
  | cons c rest ih => rw [List.flatMap_cons, History.calls_append, c.calls_deeds, ih]

theorem Provisioning.of_carried {attach : Change} {latter : List Change} {made : Task}
    {name directory : String} {output : CommandOutput} {contents : Except Files.Fault Bytes}
    {outcome : Except Halt Unit}
    (begun : create.submission = .createVm s.project o.newVm)
    (yields : create.Yields s.policy (.ok made)) (called : vm = ⟨made.entity.id⟩)
    (named : vm.text ≠ "") (success : output.success)
    (later : Succession s.policy
      [.attachIso vm ⟨imagePath name directory, contents⟩, .operateVm vm (.power .start)]
      (attach :: latter) outcome) :
    Provisioning s o vm
      (create.deeds ++ (prepared name directory (agentDocument s.agent o vm).render ++
        ⟨.run (imaging name directory), .ok output⟩ ::
          (⟨.readFile (imagePath name directory), contents⟩ :: attach.deeds) ++
        [⟨.discardScratch directory, ()⟩] ++ latter.flatMap Change.deeds))
      (create :: attach :: latter) (outcome.map fun _ => vm) := by
  have whole : Succession s.policy (provisioningPlan s o vm ⟨imagePath name directory, contents⟩)
      (create :: attach :: latter) outcome := by
    have carried := Succession.cons create made yields later
    rw [begun] at carried
    exact carried
  have completed : create.completed? = some made := yields.completed?_eq
  have attached : attach.submission = .attachIso vm ⟨imagePath name directory, contents⟩ :=
    (List.cons_prefix_cons.mp later.submissions_prefix).1
  constructor
  case calls =>
    simp only [History.calls_append, create.calls_deeds, calls_changes, List.flatMap_cons]
    rw [History.calls_cons_of_not _ rfl, History.calls_cons_of_not _ rfl, attach.calls_deeds,
      History.calls_cons_of_not _ rfl, prepared_calls]
    simp
  case planned => exact ⟨_, whole.submissions_prefix⟩
  case completed => exact fun former c latter => whole.completed_of_ne_nil
  case named => exact called_of_completed completed called
  case imaged =>
    refine .inr ⟨create, attach :: latter, name, directory, .ok output,
      ⟨.readFile (imagePath name directory), contents⟩ :: attach.deeds ++
        [⟨.discardScratch directory, ()⟩] ++ latter.flatMap Change.deeds,
      rfl, by rw [completed]; rfl, by simp, ?_, ?_, ?_⟩
    · rw [History.commands_append, History.commands_append, commands_changes,
        History.commands_cons_of_not _ rfl, attach.commands_deeds]
      rfl
    · rw [History.calls_append, History.calls_append, calls_changes,
        History.calls_cons_of_not _ rfl, attach.calls_deeds]
      rw [History.calls_cons_of_not _ rfl, History.calls_nil, List.append_nil, List.flatMap_cons]
    · intro next first
      obtain rfl := Option.some.inj first
      exact ⟨output, contents, [⟨.discardScratch directory, ()⟩] ++ latter.flatMap Change.deeds,
        rfl, success, attached, by simp⟩
  case returned =>
    intro id
    have ends : outcome.map (fun _ => vm) = .ok id ↔ id = vm ∧ outcome = .ok () := by
      cases outcome <;> simp [Except.map, eq_comm]
    rw [ends, whole.ok_iff]
    constructor
    · rintro ⟨same, long, all⟩
      exact ⟨same, named, long, all, imaging name directory, output, by simp, success⟩
    · rintro ⟨same, -, long, all, -⟩
      exact ⟨same, long, all⟩
  case nameless =>
    intro other found unnamed
    rw [called_of_completed completed called other found] at named
    exact absurd unnamed named
  case failed =>
    intro halt failed
    rcases outcome with other | done
    · obtain rfl := Except.error.inj failed
      obtain ⟨former, last, parted, yields, -⟩ := whole.last_of_error rfl
      exact .inl ⟨former, last, parted, yields.completed?_eq, yields⟩
    · cases failed

theorem does_attachImage {image : String} {deeds : History} {result : Except Halt Unit}
    (does : (do
      let contents ← perform (.readFile image)
      change s "attach iso" (.attachIso vm ⟨image, contents⟩) : Pipeline Unit).Does deeds result) :
    ∃ contents, ∃ attach : Change, attach.submission = .attachIso vm ⟨image, contents⟩ ∧
      deeds = ⟨.readFile image, contents⟩ :: attach.deeds ∧
      ((∃ halt, attach.Yields s.policy (.error halt) ∧ result = .error halt) ∨
      ∃ task, attach.Yields s.policy (.ok task) ∧ result = .ok ()) := by
  rw [does_perform_bind_iff] at does
  obtain ⟨contents, _, does, rfl⟩ := does
  obtain ⟨attach, same, rfl, ends⟩ := does_change_iff.mp does
  exact ⟨contents, attach, same, rfl, ends⟩

theorem provisioning_of_equipped {made : Task} {more : History} {result : Except Halt VmId}
    (begun : create.submission = .createVm s.project o.newVm)
    (yields : create.Yields s.policy (.ok made)) (called : vm = ⟨made.entity.id⟩)
    (named : vm.text ≠ "")
    (does : (do
      withAgentImage (o.environment s.agent vm) fun image => do
        let contents ← perform (.readFile image)
        change s "attach iso" (.attachIso vm ⟨image, contents⟩)
      change s "power on" (.operateVm vm (.power .start))
      return vm : Pipeline VmId).Does more result) :
    ∃ changes, Provisioning s o vm (create.deeds ++ more) changes result := by
  have completed : create.completed? = some made := yields.completed?_eq
  rcases does_bind_iff.mp does with ⟨halt, packs, rfl⟩ | ⟨⟨⟩, _, _, packs, starts, rfl⟩
  · rcases does_withAgentImage packs with
      ⟨_, failure, ⟨⟩⟩ | ⟨name, directory, output, inner, success, works, rfl⟩
    · rw [encode_environment] at failure
      have filled : made.entity.id ≠ "" := by rwa [called] at named
      exact ⟨[create], .of_stopped begun (called_of_completed completed called)
        (.inr ⟨made, completed, .inr ⟨filled, failure⟩⟩)⟩
    · obtain ⟨contents, attach, same, rfl, ⟨_, failed, ⟨⟩⟩ | ⟨task, -, ⟨⟩⟩⟩ :=
        does_attachImage works
      have later : Succession s.policy
          [attach.submission, .operateVm vm (.power .start)] [attach] (.error halt) :=
        .stopped attach halt failed
      rw [same] at later
      have carried : Provisioning s o vm _ [create, attach] (.error halt) :=
        .of_carried begun yields called named success later
      rw [List.flatMap_nil, List.append_nil, ← encode_environment] at carried
      exact ⟨_, carried⟩
  · rcases does_withAgentImage packs with
      ⟨_, -, ⟨⟩⟩ | ⟨name, directory, output, inner, success, works, rfl⟩
    obtain ⟨contents, attach, same, rfl, ⟨halt, -, ⟨⟩⟩ | ⟨task, attached, -⟩⟩ :=
      does_attachImage works
    obtain ⟨start, began, ⟨halt, failed, rfl, rfl⟩ | ⟨last, _, done, ⟨rfl, rfl⟩, rfl⟩⟩ :=
      does_change_bind_iff.mp starts
    · have later : Succession s.policy [attach.submission, start.submission] [attach, start]
          (.error halt) :=
        .cons attach task attached (.stopped start halt failed)
      rw [same, began] at later
      have carried : Provisioning s o vm _ [create, attach, start] (.error halt) :=
        .of_carried begun yields called named success later
      rw [List.flatMap_singleton, ← encode_environment] at carried
      exact ⟨_, carried⟩
    · have later := Succession.cons attach task attached (.cons start last done .nil)
      rw [same, began] at later
      have carried : Provisioning s o vm _ [create, attach, start] (.ok vm) :=
        .of_carried begun yields called named success later
      rw [List.flatMap_singleton, ← encode_environment] at carried
      rw [List.append_nil]
      exact ⟨_, carried⟩

theorem provisioning_of_does {deeds : History} {result : Except Halt VmId}
    (does : (createVm s o).Does deeds result) :
    ∃ vm changes, Provisioning s o vm deeds changes result := by
  rw [createVm, make, bind_assoc] at does
  rcases does_bind_iff.mp does with ⟨halt, first, rfl⟩ | ⟨made, _, more, first, later, rfl⟩
  · obtain ⟨create, begun, yields, rfl⟩ := does_step_iff.mp first
    have incomplete : create.completed? = none := yields.completed?_eq
    have stopped : Provisioning s o ⟨""⟩ (create.deeds ++ []) [create] (.error halt) :=
      .of_stopped begun (by simp [incomplete]) (.inl ⟨rfl, yields⟩)
    rw [List.append_nil] at stopped
    exact ⟨⟨""⟩, [create], stopped⟩
  · obtain ⟨create, begun, yields, rfl⟩ := does_step_iff.mp first
    have completed : create.completed? = some made := yields.completed?_eq
    split at later
    · next empty =>
      obtain ⟨rfl, rfl⟩ := later
      have unnamed : made.entity.id = "" := by simpa using empty
      exact ⟨⟨made.entity.id⟩, [create], .of_stopped begun (called_of_completed completed rfl)
        (.inr ⟨made, completed, .inl ⟨unnamed, rfl, rfl⟩⟩)⟩
    · next filled =>
      rw [pure_bind] at later
      have named : made.entity.id ≠ "" := by simpa using filled
      exact ⟨⟨made.entity.id⟩, provisioning_of_equipped begun yields rfl named later⟩

theorem Provisioning.length_commands_le {deeds : History} {changes : List Change}
    {result : Except Halt VmId} (h : Provisioning s o vm deeds changes result) :
    deeds.commands.length ≤ 1 := by
  rcases h.imaged with ⟨none, -⟩ |
    ⟨create, latter, name, directory, reply, rest, -, -, rfl, once, -⟩
  · simp [none]
  · rw [History.commands_append, History.commands_append, create.commands_deeds]
    have counted : History.commands (⟨.run (imaging name directory), reply⟩ :: rest) =
        ⟨.run (imaging name directory), reply⟩ :: rest.commands := rfl
    rw [counted, once]
    exact Nat.le_refl 1

end Provisioning

/-- Arguments that ask for no machine are turned down before anything is done. What they ask for
otherwise is carried out step by step, and the name of the machine comes back unless a step fails. -/
theorem createVm_provisioning (s : Settings) (a : Arguments) (w : Surroundings) :
    let run := (Action.createVm.invoke s a).play w []
    ((∀ o, ¬ Entrance.createVm.Asks a.values o) ∧ run.2.deeds = [] ∧
      ∃ fault, run.1 = .error (.failed (.invalidArgument fault))) ∨
    ∃ o vm changes result, Entrance.createVm.Asks a.values o ∧
      Provisioning s o vm run.2.deeds changes result ∧ run.2.deeds.commands.length ≤ 1 ∧
      run.1 = result.map fun id => .string id.text := by
  intro run
  have does : (Action.createVm.invoke s a).Does run.2.deeds run.1 := does_play _ w
  by_cases asked : ∃ o, Entrance.createVm.Asks a.values o
  case neg =>
    obtain ⟨fault, refused⟩ : ∃ fault, Action.createVm.invoke s a = fail (.invalidArgument fault) :=
      Entrance.createVm.invoke_of_mute (not_exists.mp asked)
    rw [refused] at does
    exact .inl ⟨not_exists.mp asked, does.1, fault, does.2⟩
  case pos =>
    obtain ⟨o, asked⟩ := asked
    have entered : Action.createVm.invoke s a = (do return Action.idValue (← createVm s o)) :=
      Entrance.createVm.invoke_of_asked asked
    rw [entered] at does
    rcases does_bind_iff.mp does with
      ⟨halt, first, failed⟩ | ⟨id, first, _, made, ⟨rfl, ends⟩, same⟩
    · obtain ⟨vm, changes, provisioning⟩ := provisioning_of_does first
      exact .inr ⟨o, vm, changes, .error halt, asked, provisioning,
        provisioning.length_commands_le, failed⟩
    · rw [List.append_nil] at same
      obtain ⟨vm, changes, provisioning⟩ := provisioning_of_does (same ▸ made)
      exact .inr ⟨o, vm, changes, .ok id, asked, provisioning, provisioning.length_commands_le, ends⟩

end Pipeline
end CloudProvider
