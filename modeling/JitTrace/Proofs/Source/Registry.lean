import JitTrace.Source.Script
import Mathlib.Data.List.Induction

/-!
# Runs of script registries

What can be asked of a registry, in any order. The provider is asked for a script only when
the script is known, its text is not in the log and it has not been asked before; whatever
it answers, text from the log stays until the log replaces it.
-/

namespace JitTrace

namespace ScriptRegistry

/-- A call to a registry. A provider may change its mind, so a call that may ask it says
what it would answer. -/
inductive Call where
  | addSource (id : UInt32) (url text : String)
  | addDetails (id : UInt32) (url : String)
  | ensureSource (id : UInt32) (provider : ScriptProvider)

namespace Call

/-- The call makes a script known. -/
def introduces (id : UInt32) : Call → Bool
  | .addSource other _ _ => other == id
  | .addDetails other _ => other == id
  | .ensureSource .. => false

/-- The call brings the text of a script. -/
def bringsText (id : UInt32) : Call → Bool
  | .addSource other _ _ => other == id
  | .addDetails .. => false
  | .ensureSource .. => false

/-- Some call in a row that goes on by one. -/
theorem exists_concat (kind : Call → Bool) (calls : List Call) (last : Call) :
    (∃ call ∈ calls ++ [last], kind call = true) ↔
      (∃ call ∈ calls, kind call = true) ∨ kind last = true := by
  simp [or_and_right, exists_or]

end Call

/-- The registry after a call. -/
def perform (registry : ScriptRegistry) : Call → ScriptRegistry
  | .addSource id url text => registry.addSource id url text
  | .addDetails id url => registry.addDetails id url
  | .ensureSource id provider => ({ registry with provider }.ensureSource id).2

/-- A registry that began empty, after some calls. -/
def run (calls : List Call) : ScriptRegistry :=
  calls.foldl perform {}

theorem run_append (front back : List Call) :
    run (front ++ back) = back.foldl perform (run front) :=
  List.foldl_append

theorem run_concat (calls : List Call) (call : Call) :
    run (calls ++ [call]) = (run calls).perform call :=
  run_append calls [call]

/-! ## What a call changes -/

variable {registry : ScriptRegistry} {id : UInt32} {script : Script}

theorem id_of_get? (found : registry.get? id = some script) : script.id = id := by
  simpa using List.find?_some found

/-- A script that is put into its place is found there, and no other script is affected. -/
theorem find?_put (script : Script) (scripts : List Script) (id : UInt32) :
    (put script scripts).find? (·.id == id) =
      if script.id = id then some script else scripts.find? (·.id == id) := by
  induction scripts with
  | nil => by_cases same : script.id = id <;> simp [put, same]
  | cons other scripts inductionHypothesis =>
    rw [put]
    split
    · by_cases same : script.id = id <;> simp [same]
    split
    · rename_i replaces
      by_cases same : script.id = id <;> simp_all
    · rename_i apart
      by_cases here : other.id = id
      · have differs : script.id ≠ id := by simpa [here] using apart
        simp [here, differs]
      · simpa [here] using inductionHypothesis

/-- A script that is known or added under its id. -/
theorem id_getD (registry : ScriptRegistry) (id : UInt32) (url : String) :
    ((registry.get? id).getD { id, url }).id = id := by
  cases found : registry.get? id with
  | none => rfl
  | some script => exact id_of_get? found

theorem get?_addSource (registry : ScriptRegistry) (id : UInt32) (url text : String)
    (other : UInt32) :
    (registry.addSource id url text).get? other =
      if id = other then
        let known := (registry.get? id).getD { id, url }
        some ({ known with url := if url.isEmpty then known.url else url }.setText text)
      else registry.get? other := by
  simp only [get?, addSource, find?_put, Script.setText]
  rw [show ((registry.scripts.find? (·.id == id)).getD { id, url }).id = id from
    id_getD registry id url]

theorem get?_addDetails (registry : ScriptRegistry) (id : UInt32) (url : String)
    (other : UInt32) :
    (registry.addDetails id url).get? other =
      if id = other then
        let known := (registry.get? id).getD { id, url }
        some { known with url := if known.url.isEmpty then url else known.url }
      else registry.get? other := by
  simp only [get?, addDetails, find?_put]
  rw [show ((registry.scripts.find? (·.id == id)).getD { id, url }).id = id from
    id_getD registry id url]

@[simp] theorem requests_addSource (registry : ScriptRegistry) (id : UInt32)
    (url text : String) : (registry.addSource id url text).requests = registry.requests := rfl

@[simp] theorem settled_addSource (registry : ScriptRegistry) (id : UInt32)
    (url text : String) : (registry.addSource id url text).settled = id :: registry.settled := rfl

@[simp] theorem requests_addDetails (registry : ScriptRegistry) (id : UInt32) (url : String) :
    (registry.addDetails id url).requests = registry.requests := rfl

@[simp] theorem settled_addDetails (registry : ScriptRegistry) (id : UInt32) (url : String) :
    (registry.addDetails id url).settled = registry.settled := rfl

/-- The scripts after the provider has been asked for one of them. -/
def provided (registry : ScriptRegistry) (script : Script) : List Script :=
  match registry.provider script.url with
  | .ok (some text) => put (script.setText text) registry.scripts
  | _ => registry.scripts

/-- What becomes of a registry whose provider is asked for a script. -/
def ask (registry : ScriptRegistry) (script : Script) : ScriptRegistry :=
  { registry with
    settled := script.id :: registry.settled
    requests := (script.id, script.url) :: registry.requests
    scripts := registry.provided script }

/-- To make sure of a script's text, the provider is asked if the script is known, has no
text and is not settled. Otherwise the script is settled if it is known, and that is all. -/
theorem ensureSource_cases (registry : ScriptRegistry) (id : UInt32) :
    (registry.ensureSource id = (.ok (), registry) ∧
      ∀ script, registry.get? id = some script → id ∈ registry.settled) ∨
    ∃ script, registry.get? id = some script ∧ id ∉ registry.settled ∧
      (script.text.isSome = true ∧ registry.ensureSource id =
          (.ok (), { registry with settled := id :: registry.settled }) ∨
        script.text = none ∧ registry.ensureSource id =
          ((registry.provider script.url).map fun _ => (), registry.ask script)) := by
  rw [ensureSource]
  cases found : registry.get? id with
  | none => exact .inl ⟨rfl, nofun⟩
  | some script =>
    dsimp only
    by_cases settled : id ∈ registry.settled
    · rw [if_pos (by simpa using settled)]
      exact .inl ⟨rfl, fun _ _ => settled⟩
    rw [if_neg (by simpa using settled)]
    refine .inr ⟨script, rfl, settled, ?_⟩
    cases text : script.text with
    | some text => exact .inl ⟨rfl, by simp⟩
    | none =>
      refine .inr ⟨rfl, ?_⟩
      obtain rfl := id_of_get? found
      simp only [Option.isSome_none, Bool.false_eq_true, if_false, ask, provided]
      cases registry.provider script.url with
      | error fault => rfl
      | ok answer => cases answer <;> rfl

theorem get?_ask (found : registry.get? id = some script) (other : UInt32) :
    (registry.ask script).get? other = registry.get? other ∨
      other = id ∧ ∃ text, (registry.ask script).get? other = some (script.setText text) := by
  obtain rfl := id_of_get? found
  simp only [ask, provided]
  split
  · rename_i text answered
    simp only [get?, find?_put, Script.setText]
    by_cases same : script.id = other
    · exact .inr ⟨same.symm, text, by rw [if_pos same]⟩
    · exact .inl (by rw [if_neg same])
  · exact .inl rfl

/-! ## Asking the provider -/

/-- After some calls, a further call asks the provider for a script. -/
def Asks (calls : List Call) (call : Call) (id : UInt32) : Prop :=
  ∃ url, (run (calls ++ [call])).requests = (id, url) :: (run calls).requests

/-- What a registry knows after some calls. -/
structure Lawful (calls : List Call) (registry : ScriptRegistry) : Prop where
  known : ∀ id, (registry.get? id).isSome = true ↔ ∃ call ∈ calls, call.introduces id = true
  /-- A script is settled when its text is in the log or it has been asked for. -/
  settled : ∀ id, id ∈ registry.settled ↔
    (∃ call ∈ calls, call.bringsText id = true) ∨ id ∈ registry.requests.map (·.1)
  /-- A text is in the log or has been asked for. -/
  text : ∀ id script, registry.get? id = some script → script.text.isSome = true →
    id ∈ registry.settled

namespace Lawful

variable {calls : List Call}

theorem empty : Lawful [] {} where
  known _ := by simp [get?]
  settled _ := by simp
  text _ _ found := by simp [get?] at found

theorem addSource (lawful : Lawful calls registry) (id : UInt32) (url text : String) :
    Lawful (calls ++ [.addSource id url text]) (registry.addSource id url text) where
  known other := by
    rw [get?_addSource, Call.exists_concat, Call.introduces, beq_iff_eq, ← lawful.known]
    by_cases same : id = other <;> simp [same]
  settled other := by
    rw [Call.exists_concat, Call.bringsText, beq_iff_eq, or_right_comm, requests_addSource,
      ← lawful.settled, settled_addSource, List.mem_cons, or_comm, eq_comm]
  text other script found hasText := by
    rw [get?_addSource] at found
    refine List.mem_cons.mpr ?_
    by_cases same : id = other
    · exact .inl same.symm
    · rw [if_neg same] at found
      exact .inr (lawful.text other script found hasText)

theorem addDetails (lawful : Lawful calls registry) (id : UInt32) (url : String) :
    Lawful (calls ++ [.addDetails id url]) (registry.addDetails id url) where
  known other := by
    rw [get?_addDetails, Call.exists_concat, Call.introduces, beq_iff_eq, ← lawful.known]
    by_cases same : id = other <;> simp [same]
  settled other := by
    rw [Call.exists_concat, Call.bringsText, requests_addDetails, settled_addDetails,
      lawful.settled]
    simp
  text other script found hasText := by
    rw [get?_addDetails] at found
    by_cases same : id = other
    · subst same
      rw [if_pos rfl, Option.some.injEq] at found
      subst found
      cases known : registry.get? id with
      | none => simp [known] at hasText
      | some script => exact lawful.text id script known (by simpa [known] using hasText)
    · rw [if_neg same] at found
      exact lawful.text other script found hasText

/-- Nothing that is said of a registry depends on its provider. -/
theorem withProvider (lawful : Lawful calls registry) (provider : ScriptProvider) :
    Lawful calls { registry with provider } :=
  ⟨lawful.known, lawful.settled, lawful.text⟩

/-- A call to make sure of a text neither introduces a script nor brings a text. -/
theorem afterEnsuring (lawful : Lawful calls registry) (id : UInt32) (provider : ScriptProvider) :
    Lawful (calls ++ [.ensureSource id provider]) registry where
  known other := by simpa [Call.exists_concat, Call.introduces] using lawful.known other
  settled other := by simpa [Call.exists_concat, Call.bringsText] using lawful.settled other
  text := lawful.text

theorem ask (lawful : Lawful calls registry) (found : registry.get? id = some script) :
    Lawful calls (registry.ask script) where
  known other := by
    rw [← lawful.known]
    rcases get?_ask found other with same | ⟨rfl, text, replaced⟩
    · rw [same]
    · rw [replaced, found]
      rfl
  settled other := by
    simp only [ScriptRegistry.ask, List.mem_cons, lawful.settled, List.map_cons]
    exact or_left_comm
  text other script' found' hasText := by
    refine List.mem_cons.mpr ?_
    rcases get?_ask found other with same | ⟨rfl, -⟩
    · exact .inr (lawful.text other script' (same ▸ found') hasText)
    · exact .inl (id_of_get? found).symm

/-- A script that is known and not settled has no text, so the provider is asked for it. -/
theorem ensureSource_cases (lawful : Lawful calls registry) (id : UInt32) :
    (registry.ensureSource id = (.ok (), registry) ∧
      ∀ script, registry.get? id = some script → id ∈ registry.settled) ∨
    ∃ script, registry.get? id = some script ∧ id ∉ registry.settled ∧
      registry.ensureSource id =
        ((registry.provider script.url).map fun _ => (), registry.ask script) := by
  refine (registry.ensureSource_cases id).imp_right ?_
  rintro ⟨script, found, unsettled, ⟨hasText, -⟩ | ⟨-, asked⟩⟩
  · exact absurd (lawful.text id script found hasText) unsettled
  · exact ⟨script, found, unsettled, asked⟩

theorem perform (lawful : Lawful calls registry) (call : Call) :
    Lawful (calls ++ [call]) (registry.perform call) := by
  cases call with
  | addSource id url text => exact lawful.addSource id url text
  | addDetails id url => exact lawful.addDetails id url
  | ensureSource id provider =>
    refine Lawful.afterEnsuring ?_ id provider
    have equipped := lawful.withProvider provider
    rw [ScriptRegistry.perform]
    rcases equipped.ensureSource_cases id with ⟨same, -⟩ | ⟨script, found, -, asked⟩
    · rwa [same]
    · rw [asked]
      exact equipped.ask found

end Lawful

theorem lawful_run (calls : List Call) : Lawful calls (run calls) := by
  induction calls using List.reverseRecOn with
  | nil => exact .empty
  | append_singleton calls call inductionHypothesis =>
    rw [run_concat]
    exact inductionHypothesis.perform call

section Run

variable (calls : List Call)

/-- The provider is asked for a script when the script is known, its text is not in the log
and the provider has not been asked for it. -/
theorem asks_iff (call : Call) (id : UInt32) :
    Asks calls call id ↔
      (∃ provider, call = .ensureSource id provider) ∧
      (∃ earlier ∈ calls, earlier.introduces id = true) ∧
      (∀ earlier ∈ calls, earlier.bringsText id = false) ∧
      id ∉ (run calls).requests.map (·.1) := by
  have lawful := lawful_run calls
  have untouched {after : ScriptRegistry} (same : after.requests = (run calls).requests) (url) :
      after.requests ≠ (id, url) :: (run calls).requests := by
    simp [same]
  rw [Asks, run_concat]
  constructor
  · rintro ⟨url, asked⟩
    cases call with
    | addSource other url text => exact absurd asked (untouched rfl _)
    | addDetails other url => exact absurd asked (untouched rfl _)
    | ensureSource other provider =>
      rw [perform] at asked
      rcases (lawful.withProvider provider).ensureSource_cases other with
        ⟨same, -⟩ | ⟨script, found, unsettled, ensured⟩
      · rw [same] at asked
        exact absurd asked (untouched rfl _)
      · rw [ensured] at asked
        obtain ⟨rfl, -⟩ : script.id = id ∧ script.url = url := by
          simpa [ask] using asked
        obtain rfl := id_of_get? found
        have unbrought := (lawful.settled script.id).not.mp unsettled
        simp only [not_or, not_exists, not_and, Bool.not_eq_true] at unbrought
        exact ⟨⟨provider, rfl⟩, (lawful.known _).mp (Option.isSome_of_eq_some found), unbrought⟩
  · rintro ⟨⟨provider, rfl⟩, introduced, unbrought, unasked⟩
    obtain ⟨script, found⟩ := Option.isSome_iff_exists.mp ((lawful.known id).mpr introduced)
    have unsettled : id ∉ (run calls).settled := by
      rw [lawful.settled]
      rintro (⟨call, inside, brought⟩ | asked)
      · exact Bool.false_ne_true ((unbrought call inside).symm.trans brought)
      · exact unasked asked
    rw [perform]
    rcases (lawful.withProvider provider).ensureSource_cases id with
      ⟨-, settled⟩ | ⟨script, found, -, ensured⟩
    · exact absurd (settled script found) unsettled
    · obtain rfl := id_of_get? found
      exact ⟨script.url, by rw [ensured]; rfl⟩

/-- One more call asks the provider for at most one script. -/
theorem requests_concat (call : Call) :
    (∀ id, ¬ Asks calls call id) ∧
        (run (calls ++ [call])).requests = (run calls).requests ∨
      ∃ id, Asks calls call id ∧ ∀ other, Asks calls call other → other = id := by
  by_cases asks : ∃ id, Asks calls call id
  · obtain ⟨id, url, asked⟩ := asks
    refine .inr ⟨id, ⟨url, asked⟩, ?_⟩
    rintro other ⟨otherUrl, otherAsked⟩
    rw [asked] at otherAsked
    simp_all
  · refine .inl ⟨fun id asked => asks ⟨id, asked⟩, ?_⟩
    rw [run_concat]
    cases call with
    | addSource id url text => rfl
    | addDetails id url => rfl
    | ensureSource id provider =>
      rw [perform]
      rcases ((lawful_run calls).withProvider provider).ensureSource_cases id with
        ⟨same, -⟩ | ⟨script, -, -, ensured⟩
      · rw [same]
      · refine absurd ⟨script.id, script.url, ?_⟩ asks
        rw [run_concat, perform, ensured]
        rfl

/-- The provider has been asked for what some call asked it for. -/
theorem mem_requests_iff (id : UInt32) :
    id ∈ (run calls).requests.map (·.1) ↔
      ∃ front call, front ++ [call] <+: calls ∧ Asks front call id := by
  induction calls using List.reverseRecOn with
  | nil => simp [run]
  | append_singleton calls last inductionHypothesis =>
    have extended : (∃ front call, front ++ [call] <+: calls ++ [last] ∧ Asks front call id) ↔
        Asks calls last id ∨ id ∈ (run calls).requests.map (·.1) := by
      rw [inductionHypothesis]
      constructor
      · rintro ⟨front, call, isPrefix, asked⟩
        rcases List.prefix_concat_iff.mp isPrefix with same | shorter
        · obtain ⟨rfl, rfl⟩ := List.append_inj' same rfl |>.imp_right List.singleton_inj.mp
          exact .inl asked
        · exact .inr ⟨front, call, shorter, asked⟩
      · rintro (asked | ⟨front, call, shorter, asked⟩)
        · exact ⟨calls, last, List.prefix_refl _, asked⟩
        · exact ⟨front, call, shorter.trans (List.prefix_append ..), asked⟩
    rw [extended]
    rcases requests_concat calls last with ⟨unasked, same⟩ | ⟨other, ⟨url, asked⟩, unique⟩
    · rw [same]
      exact (or_iff_right (unasked id)).symm
    · rw [asked, List.map_cons, List.mem_cons]
      refine or_congr_left ⟨?_, unique id⟩
      rintro rfl
      exact ⟨url, asked⟩

/-- The provider is asked at most once for each script. -/
theorem nodup_requests : ((run calls).requests.map (·.1)).Nodup := by
  induction calls using List.reverseRecOn with
  | nil => exact List.nodup_nil
  | append_singleton calls last inductionHypothesis =>
    rcases requests_concat calls last with ⟨-, same⟩ | ⟨id, asks, -⟩
    · rwa [same]
    · have unasked := ((asks_iff calls last id).mp asks).2.2.2
      obtain ⟨url, asked⟩ := asks
      rw [asked, List.map_cons]
      exact List.nodup_cons.mpr ⟨unasked, inductionHypothesis⟩

end Run

/-! ## Text from the log -/

/-- The text of a script is in the log. -/
structure Records (registry : ScriptRegistry) (id : UInt32) (text : String) : Prop where
  settled : id ∈ registry.settled
  found : ∃ script, registry.get? id = some script ∧ script.text = some text

/-- A text from the log stays until the log brings another one. -/
theorem Records.perform {text : String} (records : registry.Records id text) {call : Call}
    (other : call.bringsText id = false) : (registry.perform call).Records id text := by
  obtain ⟨settled, script, found, known⟩ := records
  cases call with
  | addSource another url newText =>
    have apart : another ≠ id := by simpa [Call.bringsText] using other
    refine ⟨List.mem_cons_of_mem _ settled, script, ?_, known⟩
    rw [ScriptRegistry.perform, get?_addSource, if_neg apart, found]
  | addDetails another url =>
    refine ⟨settled, ?_⟩
    rw [ScriptRegistry.perform, get?_addDetails]
    by_cases same : another = id
    · subst same
      rw [if_pos rfl, found]
      exact ⟨_, rfl, known⟩
    · exact ⟨script, (if_neg same).trans found, known⟩
  | ensureSource another provider =>
    rw [ScriptRegistry.perform]
    rcases ({ registry with provider }.ensureSource_cases another) with
      ⟨same, -⟩ | ⟨asked, askedFor, unsettled, ⟨-, ensured⟩ | ⟨-, ensured⟩⟩
    · rw [same]
      exact ⟨settled, script, found, known⟩
    · rw [ensured]
      exact ⟨List.mem_cons_of_mem _ settled, script, found, known⟩
    · rw [ensured]
      refine ⟨List.mem_cons_of_mem _ settled, script, ?_, known⟩
      rcases get?_ask askedFor id with same | ⟨rfl, -⟩
      · exact same.trans found
      · exact absurd settled unsettled

theorem Records.foldl_perform {text : String} {calls : List Call}
    (records : registry.Records id text)
    (others : ∀ call ∈ calls, call.bringsText id = false) :
    (calls.foldl ScriptRegistry.perform registry).Records id text := by
  induction calls generalizing registry with
  | nil => exact records
  | cons call calls inductionHypothesis =>
    exact inductionHypothesis (records.perform (others call List.mem_cons_self))
      fun later inside => others later (List.mem_cons_of_mem _ inside)

/-- A call asks the provider for a script exactly when it is the first to make sure of a known
script whose text the log has not brought. Any other call to make sure of a script leaves
things as they are, whatever the provider would have answered. A text from the log stays
until the log brings another one. -/
theorem provider_asked_once (calls : List Call) (id : UInt32) :
    ((run calls).requests.map (·.1)).Nodup ∧
    (∀ call, Asks calls call id ↔
      (∃ provider, call = .ensureSource id provider) ∧
      (∃ earlier ∈ calls, earlier.introduces id = true) ∧
      (∀ earlier ∈ calls, earlier.bringsText id = false) ∧
      ∀ front earlier, front ++ [earlier] <+: calls → ¬ Asks front earlier id) ∧
    (∀ provider, ¬ Asks calls (.ensureSource id provider) id →
      { run calls with provider }.ensureSource id = (.ok (), { run calls with provider })) ∧
    (∀ front url text back, calls = front ++ .addSource id url text :: back →
      (∀ later ∈ back, later.bringsText id = false) →
      ∃ script, (run calls).get? id = some script ∧ script.text = some text) := by
  refine ⟨nodup_requests calls, ?_, ?_, ?_⟩
  · intro call
    rw [asks_iff, mem_requests_iff]
    simp only [not_exists, not_and]
  · intro provider unasked
    have equipped := (lawful_run calls).withProvider provider
    rcases equipped.ensureSource_cases id with ⟨same, -⟩ | ⟨script, found, -, ensured⟩
    · exact same
    · obtain rfl := id_of_get? found
      refine absurd ⟨script.url, ?_⟩ unasked
      rw [run_concat, perform, ensured]
      rfl
  · rintro front url text back rfl others
    have recorded : ((run front).addSource id url text).Records id text :=
      ⟨List.mem_cons_self, _, (get?_addSource ..).trans (if_pos rfl), rfl⟩
    rw [run_append]
    exact (recorded.foldl_perform others).found

/-- A provider that fails at first is not asked again, and a text from the log is not asked
for. -/
theorem provider_asked_once_failing :
    let calls : List Call :=
      [.ensureSource 3 fun _ => .ok (some "too early"),
        .addDetails 3 "x.js",
        .ensureSource 3 fun _ => .error .cancelled,
        .addSource 4 "inline.js" "y",
        .ensureSource 3 fun _ => .ok (some "too late"),
        .ensureSource 4 fun _ => .ok (some "never")]
    (run calls).requests = [(3, "x.js")] ∧
      (¬ Asks calls (.ensureSource 3 ScriptProvider.none) 3 ∧
      { run calls with provider := ScriptProvider.none }.ensureSource 3 =
        (.ok (), { run calls with provider := ScriptProvider.none })) ∧
      ∃ script, (run calls).get? 4 = some script ∧ script.text = some "y" := by
  intro calls
  obtain ⟨-, asks, unasked, -⟩ := provider_asked_once calls 3
  have quiet : ¬ Asks calls (.ensureSource 3 ScriptProvider.none) 3 := by
    rw [asks]
    rintro ⟨-, -, -, never⟩
    exact never (calls.take 2) _ ⟨calls.drop 3, rfl⟩ ⟨"x.js", rfl⟩
  refine ⟨rfl, ⟨quiet, unasked ScriptProvider.none quiet⟩, ?_⟩
  exact (provider_asked_once calls 4).2.2.2 (calls.take 3) "inline.js" "y" (calls.drop 4) rfl
    (by decide)

end ScriptRegistry

end JitTrace
