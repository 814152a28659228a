/-
Queries of many clients at once.

Some calls are made on one shared database, each with a query. A call begins, takes the turns of its query (`Task`),
and finishes; in what order the events of all calls happen is open (`Shared.run`). Only a turn touches the disk, and
one turn ends before another one begins.

Whatever happens, the calls are answered as if they had been executed one after another (`Database.serializable`).
Each is put in its place in this order at its last turn, or at its beginning if it takes no turn. That is right for
what takes one turn. A select that takes two has done nothing to the disk in its first one, and would be told the same
schema now: a catalog only grows (`Underway`, `Grows.schema`). So at its last turn all of it could be executed at once.
-/
import TableStore.Proofs.Database.Turns

namespace TableStore

open Tables (Operation)

variable {o : Options} {catalog tablespace : Site} {db : Database} {d d' : Disk} {n : Nat}

/-! ## Calls and events -/

/-- how far a call has come -/
inductive Phase where
  | waiting
  | running (task : Task (Except Error Answer))
  | answered (result : Except Error Answer)

def Phase.answer? : Phase → Option (Except Error Answer)
  | answered result => some result
  | _ => none

inductive Event (n : Nat) where
  | begins (call : Fin n)
  | turns (call : Fin n)
  | finishes (call : Fin n)
  deriving DecidableEq

/-- all calls, and the one disk -/
structure Shared (n : Nat) where
  phase : Fin n → Phase
  disk : Disk

namespace Shared

def start (d : Disk) : Shared n := ⟨fun _ => .waiting, d⟩

/-- the calls with one of them in another phase -/
def put (now : Shared n) (call : Fin n) (phase : Phase) (disk : Disk) : Shared n :=
  ⟨Function.update now.phase call phase, disk⟩

/-- one event, where it can happen -/
def step (t : Tables) (queries : Fin n → String) (now : Shared n) : Event n → Option (Shared n)
  | .begins call =>
    match now.phase call with
    | .waiting => some (now.put call (.running (Task.execute (queries call)).run) now.disk)
    | _ => none
  | .turns call =>
    match now.phase call with
    | .running (.turn operation next) =>
      let (reply, disk) := (operation.ask t).run now.disk
      some (now.put call (.running (next reply)) disk)
    | _ => none
  | .finishes call =>
    match now.phase call with
    | .running (.done result) => some (now.put call (.answered result) now.disk)
    | _ => none

/-- events in their order, where they can happen in it -/
def run (t : Tables) (queries : Fin n → String) (now : Shared n) (events : List (Event n)) : Option (Shared n) :=
  events.foldlM (step t queries) now

theorem phase_put (now : Shared n) (call : Fin n) (phase : Phase) (disk : Disk) :
    (now.put call phase disk).phase call = phase := Function.update_self ..

theorem phase_put_ne (now : Shared n) {call other : Fin n} (h : other ≠ call) (phase : Phase) (disk : Disk) :
    (now.put call phase disk).phase other = now.phase other := Function.update_of_ne h ..

end Shared

/-! ## Calls underway -/

/-- what is left of a query that is underway: all of it, or of a select the rows, if its schema is still the one it was
told -/
inductive Underway (t : Tables) (d : Disk) (query : String) : Task (Except Error Answer) → Prop where
  | fresh : Underway t d query (Task.execute query).run
  | reading {s : Select} {schema : Schema} : Statement.parse query = .ok (.select s) →
      ((t.catalog.schema s.table).run.run d).1 = .ok schema → Underway t d query (Task.reading s schema)

variable {query : String} {task : Task (Except Error Answer)}

/-- doing now what is left of a query is executing it now -/
theorem Underway.run_eq (h : Underway db.tables d query task) :
    (task.on db.tables).run d = (db.execute query).run.run d := by
  have whole : (db.execute query).run = (Task.execute query).run.on db.tables :=
    (congrArg ExceptT.run (Task.through_execute db query)).symm
  rw [whole]
  cases h with
  | fresh => rfl
  | @reading s schema parsed found =>
    have selects : (Task.execute query).run = Task.selecting s := by
      rw [Task.execute, parsed]
      exact Task.perform_select s
    have told := (db.tables.catalog.still_schema s.table).run_eq d
    rw [found] at told
    have asked : ((Operation.schema s.table).ask db.tables).run d = (.ok schema, d) := told
    rw [selects, Task.selecting, Task.run_turn asked]

/-- what other calls do makes no difference to a call underway -/
theorem Underway.grows (h : Underway db.tables d query task) (placed : Placed o catalog tablespace d)
    (opened : db.tables.IsOpen o catalog tablespace) (grows : Grows o catalog tablespace d d') :
    Underway db.tables d' query task := by
  cases h with
  | fresh => exact .fresh
  | reading parsed found => exact .reading parsed (grows.schema placed opened.catalog found)

/-- a turn is the last one of its call, or it has told a select its schema and has changed nothing -/
theorem Underway.turn {operation : Operation} {next : operation.Reply → Task (Except Error Answer)}
    (h : Underway db.tables d query (.turn operation next)) {reply : operation.Reply}
    (asked : (operation.ask db.tables).run d = (reply, d')) :
    (∃ result, next reply = .done result) ∨ d' = d ∧ Underway db.tables d query (next reply)
      ∧ ∃ operation' next', next reply = .turn operation' next' := by
  generalize eq : Task.turn operation next = task at h
  cases h with
  | fresh =>
    rcases Task.execute_cases query with ⟨result, none⟩ | ⟨operation', answer, one⟩ | ⟨s, parsed, two⟩
    · rw [none] at eq
      cases eq
    · rw [one] at eq
      cases eq
      exact .inl ⟨_, rfl⟩
    · rw [two, Task.selecting] at eq
      cases eq
      have told : (db.tables.catalog.schema s.table).run.run d = (reply, d') := asked
      have same := (db.tables.catalog.still_schema s.table).disk_run d
      rw [told] at same
      cases reply with
      | error e => exact .inl ⟨_, rfl⟩
      | ok schema => exact .inr ⟨same, .reading parsed (congrArg Prod.fst told), _, _, rfl⟩
  | reading parsed found =>
    rw [Task.reading] at eq
    cases eq
    cases reply with
    | error e => exact .inl ⟨_, rfl⟩
    | ok rows => exact .inl ⟨_, rfl⟩

/-! ## The order of the calls -/

/-- the answer that a call has, also before it has finished -/
def Phase.settled? : Phase → Option (Except Error Answer)
  | running (.done result) | answered result => some result
  | _ => none

/-- the calls that have an answer, in the order in which they came to it: executed one after another they have the same
answers and leave the same disk, and no call comes before one that had finished before it began -/
structure Serialized (o : Options) (catalog tablespace : Site) (db : Database) (queries : Fin n → String) (d : Disk)
    (events : List (Event n)) (now : Shared n) (order : List (Fin n)) : Prop where
  placed : Placed o catalog tablespace now.disk
  nodup : order.Nodup
  mem_iff : ∀ call, call ∈ order ↔ (now.phase call).settled?.isSome
  serial : ∃ results, (db.executeAll (order.map queries)).run d = (results, now.disk)
    ∧ order.map (fun call => (now.phase call).settled?) = results.map some
  underway : ∀ call operation next, now.phase call = .running (.turn operation next) →
    Underway db.tables now.disk (queries call) (.turn operation next)
  finished : ∀ call, .finishes call ∈ events → call ∈ order
  before : ∀ first second, [.finishes first, .begins second].Sublist events →
    order.idxOf first < order.idxOf second

/-- of two events in a row one is the last, or both come before it -/
theorem sublist_snoc {first second last : Event n} {events : List (Event n)}
    (h : [first, second].Sublist (events ++ [last])) :
    [first, second].Sublist events ∨ first ∈ events ∧ second = last := by
  obtain ⟨front, back, split, inEvents, inLast⟩ := List.sublist_append_iff.1 h
  rcases front with _ | ⟨a, _ | ⟨b, rest⟩⟩
  · have short := inLast.length_le
    rw [← List.nil_append back, ← split] at short
    exact absurd short (by simp)
  · obtain ⟨rfl, rfl⟩ : first = a ∧ [second] = back := by simpa using split
    exact .inr ⟨List.singleton_sublist.1 inEvents, List.mem_singleton.1 (List.singleton_sublist.1 inLast)⟩
  · obtain ⟨rfl, rfl, nil⟩ : first = a ∧ second = b ∧ [] = rest ++ back := by simpa using split
    obtain ⟨rfl, -⟩ := List.append_eq_nil_iff.1 nil.symm
    exact .inl inEvents

/-- what comes before something in an order does so also if the order goes on -/
theorem idxOf_lt_snoc {order : List (Fin n)} {first second : Fin n} (h : order.idxOf first < order.idxOf second)
    (last : Fin n) : (order ++ [last]).idxOf first < (order ++ [last]).idxOf second := by
  have mem : first ∈ order := List.idxOf_lt_length_iff.1 (h.trans_le List.idxOf_le_length)
  rw [List.idxOf_append_of_mem mem]
  by_cases there : second ∈ order
  · rwa [List.idxOf_append_of_mem there]
  · rw [List.idxOf_append_of_notMem there]
    exact (List.idxOf_lt_length_iff.2 mem).trans_le (Nat.le_add_right _ _)

/-- what is in an order comes before what is not -/
theorem idxOf_lt_of_notMem {order : List (Fin n)} {first second : Fin n} (mem : first ∈ order)
    (missing : second ∉ order) : order.idxOf first < order.idxOf second := by
  rw [List.idxOf_eq_length missing]
  exact List.idxOf_lt_length_iff.2 mem

section Serialized

variable {queries : Fin n → String} {events : List (Event n)} {now : Shared n} {order : List (Fin n)}

theorem serialized_start (placed : Placed o catalog tablespace d) :
    Serialized o catalog tablespace db queries d [] (.start d) [] where
  placed := placed
  nodup := .nil
  mem_iff call := by simp [Shared.start, Phase.settled?]
  serial := ⟨[], rfl, rfl⟩
  underway call operation next waits := by cases waits
  finished call mem := by cases mem
  before first second sub := by cases sub

theorem Serialized.notMem (h : Serialized o catalog tablespace db queries d events now order) {call : Fin n}
    (unsettled : (now.phase call).settled? = none) : call ∉ order := by
  rw [h.mem_iff, unsettled]
  simp

/-- a call that comes to its answer goes behind all others that have one, where executing it gives this answer now -/
theorem Serialized.settle (h : Serialized o catalog tablespace db queries d events now order)
    (opened : db.tables.IsOpen o catalog tablespace) {call : Fin n} {event : Event n} {result : Except Error Answer}
    (unsettled : (now.phase call).settled? = none)
    (ran : (db.execute (queries call)).run.run now.disk = (result, d'))
    (grows : Grows o catalog tablespace now.disk d') (noFinish : ∀ other, event ≠ .finishes other)
    (begun : ∀ other, event = .begins other → other = call) :
    Serialized o catalog tablespace db queries d (events ++ [event]) (now.put call (.running (.done result)) d')
      (order ++ [call]) where
  placed := grows.placed
  nodup := by
    refine List.nodup_append.2 ⟨h.nodup, List.nodup_singleton call, fun other mem last mem' same => ?_⟩
    obtain rfl := List.mem_singleton.1 mem'
    exact h.notMem unsettled (same ▸ mem)
  mem_iff other := by
    rw [List.mem_append, List.mem_singleton]
    by_cases same : other = call
    · subst same
      rw [Shared.phase_put]
      exact ⟨fun _ => rfl, fun _ => .inr rfl⟩
    · rw [Shared.phase_put_ne now same, h.mem_iff]
      simp [same]
  serial := by
    obtain ⟨results, serial, settled⟩ := h.serial
    refine ⟨results ++ [result], ?_, ?_⟩
    · rw [List.map_append]
      exact Database.run_executeAll_snoc serial ran
    · have others : order.map (fun other => ((now.put call (.running (.done result)) d').phase other).settled?)
          = order.map fun other => (now.phase other).settled? := by
        refine List.map_congr_left fun other mem => ?_
        rw [Shared.phase_put_ne]
        rintro rfl
        exact h.notMem unsettled mem
      rw [List.map_append, others, settled, List.map_append, List.map_singleton, Shared.phase_put]
      rfl
  underway other operation next phase := by
    by_cases same : other = call
    · subst same
      rw [Shared.phase_put] at phase
      cases phase
    · rw [Shared.phase_put_ne now same] at phase
      exact (h.underway other operation next phase).grows h.placed opened grows
  finished other mem := by
    rcases List.mem_append.1 mem with earlier | last
    · exact List.mem_append_left _ (h.finished other earlier)
    · exact absurd (List.mem_singleton.1 last).symm (noFinish other)
  before first second sub := by
    refine idxOf_lt_snoc ?_ call
    rcases sublist_snoc sub with earlier | ⟨finished, last⟩
    · exact h.before first second earlier
    · rw [begun second last.symm]
      exact idxOf_lt_of_notMem (h.finished first finished) (h.notMem unsettled)

/-- what changes neither the disk nor which calls have an answer leaves the order -/
theorem Serialized.keep (h : Serialized o catalog tablespace db queries d events now order) {call : Fin n}
    {event : Event n} {phase : Phase} (same : phase.settled? = (now.phase call).settled?)
    (underway : ∀ operation next, phase = .running (.turn operation next) →
      Underway db.tables now.disk (queries call) (.turn operation next))
    (finished : ∀ other, event = .finishes other → other ∈ order)
    (begun : ∀ other, event = .begins other → other ∉ order) :
    Serialized o catalog tablespace db queries d (events ++ [event]) (now.put call phase now.disk) order := by
  have settled (other : Fin n) :
      ((now.put call phase now.disk).phase other).settled? = (now.phase other).settled? := by
    by_cases here : other = call
    · subst here
      rw [Shared.phase_put, same]
    · rw [Shared.phase_put_ne now here]
  refine ⟨h.placed, h.nodup, fun other => ?_, ?_, ?_, ?_, ?_⟩
  · rw [settled, h.mem_iff]
  · simp only [settled]
    exact h.serial
  · intro other operation next running
    by_cases here : other = call
    · subst here
      rw [Shared.phase_put] at running
      exact underway operation next running
    · rw [Shared.phase_put_ne now here] at running
      exact h.underway other operation next running
  · intro other mem
    rcases List.mem_append.1 mem with earlier | last
    · exact h.finished other earlier
    · exact finished other (List.mem_singleton.1 last).symm
  · intro first second sub
    rcases sublist_snoc sub with earlier | ⟨mem, last⟩
    · exact h.before first second earlier
    · exact idxOf_lt_of_notMem (h.finished first mem) (begun second last.symm)

/-- **One event.** The order stays, or the call of the event goes behind it. -/
theorem Serialized.step (h : Serialized o catalog tablespace db queries d events now order)
    (opened : db.tables.IsOpen o catalog tablespace) {event : Event n} {now' : Shared n}
    (happened : now.step db.tables queries event = some now') :
    ∃ order', Serialized o catalog tablespace db queries d (events ++ [event]) now' order' := by
  cases event with
  | begins call =>
    cases phase : now.phase call with
    | waiting =>
      simp only [Shared.step, phase, Option.some.injEq] at happened
      subst happened
      have unsettled : (now.phase call).settled? = none := by rw [phase]; rfl
      have whole : Underway db.tables now.disk (queries call) (Task.execute (queries call)).run := .fresh
      cases task : (Task.execute (queries call)).run with
      | done result =>
        have ran := whole.run_eq
        rw [task] at ran
        exact ⟨_, h.settle opened unsettled ran.symm (.refl h.placed) (by simp) (by simp)⟩
      | turn operation next =>
        rw [task] at whole
        refine ⟨order, h.keep (unsettled.symm ▸ rfl) ?_ (by simp) ?_⟩
        · rintro operation' next' running
          cases running
          exact whole
        · rintro other same
          cases same
          exact h.notMem unsettled
    | running task => simp [Shared.step, phase] at happened
    | answered result => simp [Shared.step, phase] at happened
  | turns call =>
    cases phase : now.phase call with
    | waiting => simp [Shared.step, phase] at happened
    | answered result => simp [Shared.step, phase] at happened
    | running task =>
      cases task with
      | done result => simp [Shared.step, phase] at happened
      | turn operation next =>
        have unsettled : (now.phase call).settled? = none := by rw [phase]; rfl
        have underway := h.underway call operation next phase
        have grows := Tables.grows h.placed opened operation
        rcases asked : (operation.ask db.tables).run now.disk with ⟨reply, d'⟩
        simp only [Shared.step, phase, asked, Option.some.injEq] at happened
        subst happened
        rw [asked] at grows
        rcases underway.turn asked with ⟨result, last⟩ | ⟨same, more, operation', next', form⟩
        · have ran := underway.run_eq
          rw [Task.run_turn asked, last] at ran
          rw [last]
          exact ⟨_, h.settle opened unsettled ran.symm grows (by simp) (by simp)⟩
        · subst same
          rw [form] at more ⊢
          refine ⟨order, h.keep (unsettled.symm ▸ rfl) ?_ (by simp) (by simp)⟩
          rintro operation'' next'' running
          cases running
          exact more
  | finishes call =>
    cases phase : now.phase call with
    | waiting => simp [Shared.step, phase] at happened
    | answered result => simp [Shared.step, phase] at happened
    | running task =>
      cases task with
      | turn operation next => simp [Shared.step, phase] at happened
      | done result =>
        simp only [Shared.step, phase, Option.some.injEq] at happened
        subst happened
        refine ⟨order, h.keep (by rw [phase]; rfl) (by simp) ?_ (by simp)⟩
        rintro other same
        cases same
        rw [h.mem_iff, phase]
        rfl

/-- **Any number of events.** -/
theorem Serialized.run (h : Serialized o catalog tablespace db queries d events now order)
    (opened : db.tables.IsOpen o catalog tablespace) {later : List (Event n)} {final : Shared n}
    (happened : now.run db.tables queries later = some final) :
    ∃ order', Serialized o catalog tablespace db queries d (events ++ later) final order' := by
  induction later generalizing events now order with
  | nil =>
    cases happened
    exact ⟨order, by rwa [List.append_nil]⟩
  | cons event rest ih =>
    rw [Shared.run, List.foldlM_cons] at happened
    obtain ⟨now', stepped, onward⟩ := Option.bind_eq_some_iff.1 happened
    obtain ⟨order', h'⟩ := h.step opened stepped
    obtain ⟨order'', h''⟩ := ih h' onward
    exact ⟨order'', by rwa [List.append_assoc] at h''⟩

end Serialized

/-- **Queries of many clients are serializable.** Let both files be where a database has them open, whatever they hold.
However the calls of some clients take turns, once all are answered there is an order of them in which no call comes
before one that had finished before it began, such that executing them one after another gives every call the same
answer and leaves the same disk. -/
theorem Database.serializable (placed : Placed o catalog tablespace d) (opened : db.tables.IsOpen o catalog tablespace)
    (queries : Fin n → String) (events : List (Event n)) (final : Shared n) (answers : Fin n → Except Error Answer)
    (happened : (Shared.start d).run db.tables queries events = some final)
    (complete : ∀ call, (final.phase call).answer? = some (answers call)) :
    ∃ order : List (Fin n), order.Perm (List.finRange n)
      ∧ (∀ first second, [.finishes first, .begins second].Sublist events → order.idxOf first < order.idxOf second)
      ∧ (db.executeAll (order.map queries)).run d = (order.map answers, final.disk) := by
  obtain ⟨order, serialized⟩ := (serialized_start placed).run opened happened
  have settled (call : Fin n) : (final.phase call).settled? = some (answers call) := by
    have answered := complete call
    cases phase : final.phase call with
    | waiting =>
      rw [phase] at answered
      cases answered
    | running task =>
      rw [phase] at answered
      cases answered
    | answered result =>
      rw [phase] at answered
      exact answered
  refine ⟨order, ?_, serialized.before, ?_⟩
  · refine (List.perm_ext_iff_of_nodup serialized.nodup (List.nodup_finRange n)).2 fun call => ?_
    rw [serialized.mem_iff, settled]
    simp
  · obtain ⟨results, serial, same⟩ := serialized.serial
    have results_eq : results = order.map answers := by
      refine List.map_injective_iff.2 (Option.some_injective _) ?_
      rw [← same, List.map_map]
      exact List.map_congr_left fun call _ => settled call
    rw [serial, results_eq]

/-! ## A select between other calls -/

/-- one table without rows -/
def stocked : Disk :=
  (({} : Disk).withFile ["flatdb.catalog"] (Catalog.encode [.ofColumns "item" ["id"] ["string"]])).withFile
    ["flatdb.data"] (Tablespace.encode ((∅ : Keyed (List Row)).insert "item" []))

def stock : Database := ⟨⟨.fresh "./flatdb.catalog" 0 0⟩, ⟨.fresh "./flatdb.data" 1 0⟩⟩

def threeQueries : Fin 3 → String :=
  !["select * from item", "insert into item values ('7')", "create table item (name string)"]

/-- the insert and the create fall between the two turns of the select -/
def threeCalls : List (Event 3) :=
  [.begins 0, .turns 0, .begins 1, .turns 1, .finishes 1, .begins 2, .turns 2, .turns 0, .finishes 0, .finishes 2]

def threeAnswers : Fin 3 → Except Error Answer :=
  ![.ok (.records [⟨["id"], ["string"], ["7"]⟩]), .ok .inserted,
    .error (.inContext "execute create statement"
      (.inContext "add table item in catalog" (.tableExists "item")))]

/-- the select finds the row that was inserted after it had begun, as if it had been executed after the insert -/
theorem Database.serializable_stock :
    Placed {} ⟨["flatdb.catalog"], 0, ["flatdb.catalog.safe"]⟩ ⟨["flatdb.data"], 1, ["flatdb.data.safe"]⟩ stocked
      ∧ stock.tables.IsOpen {} ⟨["flatdb.catalog"], 0, ["flatdb.catalog.safe"]⟩
          ⟨["flatdb.data"], 1, ["flatdb.data.safe"]⟩
      ∧ ∃ final, (Shared.start stocked).run stock.tables threeQueries threeCalls = some final
        ∧ (∀ call, (final.phase call).answer? = some (threeAnswers call))
        ∧ ∃ order : List (Fin 3), order.Perm (List.finRange 3) ∧ order.idxOf 1 < order.idxOf 2
          ∧ (stock.executeAll (order.map threeQueries)).run stocked = (order.map threeAnswers, final.disk) := by
  have placed : Placed {} ⟨["flatdb.catalog"], 0, ["flatdb.catalog.safe"]⟩
      ⟨["flatdb.data"], 1, ["flatdb.data.safe"]⟩ stocked :=
    ⟨⟨⟨rfl, rfl, by decide⟩, ⟨rfl, rfl, by decide⟩⟩, ⟨⟨rfl, rfl, by decide⟩, ⟨rfl, rfl, by decide⟩⟩, by decide⟩
  have opened : stock.tables.IsOpen {} ⟨["flatdb.catalog"], 0, ["flatdb.catalog.safe"]⟩
      ⟨["flatdb.data"], 1, ["flatdb.data.safe"]⟩ := ⟨⟨rfl, rfl, rfl⟩, ⟨rfl, rfl, rfl⟩⟩
  have ends : ∀ call, ((Shared.start stocked).run stock.tables threeQueries threeCalls).map
      (fun final => (final.phase call).answer?) = some (some (threeAnswers call)) := by
    decide +kernel
  obtain ⟨final, happened, -⟩ := Option.map_eq_some_iff.1 (ends 0)
  have complete (call : Fin 3) : (final.phase call).answer? = some (threeAnswers call) := by
    have answered := ends call
    rw [happened] at answered
    exact Option.some.inj answered
  obtain ⟨order, all, before, same⟩ :=
    serializable placed opened threeQueries threeCalls final threeAnswers happened complete
  have apart : [.finishes 1, .begins 2].Sublist threeCalls := by decide
  exact ⟨placed, opened, final, happened, complete, order, all, before 1 2 apart, same⟩

end TableStore
