/-
  `Proofs.Evaluation.Session`: the registry that a session keeps changes no answer.

  A session is coherent while the registry it keeps, if it keeps one, is the registry
  that its program would make, and the index of every slot is the number of its line.
  Each query of a coherent session does what the step of the same name does to the
  program alone, gives the same answer or the same fault, and leaves a coherent session,
  whether it succeeds or not.  So whatever is proved about the steps of a program holds
  of sessions, whenever the registry was made.
-/
import RelCalc.Program.Session
import RelCalc.Proofs.Evaluation.Step

set_option autoImplicit false

namespace RelCalc

open Outcome

/-! ## Registries -/

section Registry

/-- The entries of a registry for slots that stand in lines from a given one on. -/
def Program.registryFrom (line : Nat) (slots : List Slot) : List (Nat × Value) :=
  (slots.zipIdx line).filterMap fun entry => entry.1.value?.map (entry.2, ·)

variable {line : Nat} {slot : Slot} {rest slots : List Slot} {value : Value}

theorem Program.registryFrom_cons_of_value (held : slot.value? = some value) :
    registryFrom line (slot :: rest) = (line, value) :: registryFrom (line + 1) rest := by
  rw [registryFrom, List.zipIdx_cons, List.filterMap_cons, held]
  rfl

theorem Program.registryFrom_cons_of_none (lacking : slot.value? = none) :
    registryFrom line (slot :: rest) = registryFrom (line + 1) rest := by
  rw [registryFrom, List.zipIdx_cons, List.filterMap_cons, lacking]
  rfl

/-- A registry is made from the values of slots, and nothing else of them. -/
theorem Program.registryFrom_congr (line : Nat) {others : List Slot}
    (same : slots.map Slot.value? = others.map Slot.value?) :
    registryFrom line slots = registryFrom line others := by
  have ofValues (slots : List Slot) : registryFrom line slots =
      ((slots.map Slot.value?).zipIdx line).filterMap fun entry => entry.1.map (entry.2, ·) := by
    rw [registryFrom, List.zipIdx_map, List.filterMap_map]
    rfl
  rw [ofValues, ofValues, same]

/-- A registry is keyed by the indexes of slots, which are the numbers of their lines. -/
theorem Program.Indexed.registry_eq {p : Program} (indexed : p.Indexed) :
    p.registry = registryFrom 1 p.slots := by
  have keyed (line : Nat) (slots : List Slot)
      (index : ∀ (i : Nat) (slot : Slot), slots[i]? = some slot → slot.index = line + i) :
      slots.filterMap (fun slot => slot.value?.map (slot.index, ·)) = registryFrom line slots := by
    induction slots generalizing line with
    | nil => rfl
    | cons slot rest ih =>
      have later := ih (line + 1) fun i held found => by
        rw [index (i + 1) held found]
        omega
      have here := index 0 slot rfl
      cases held : slot.value? with
      | some value =>
        rw [List.filterMap_cons, held, registryFrom_cons_of_value held, ← later, here]
        rfl
      | none =>
        rw [List.filterMap_cons, held, registryFrom_cons_of_none held, ← later]
        rfl
  exact keyed 1 p.slots fun i slot found => by rw [indexed i slot found, Nat.add_comm]

/-- A registry lists no line before its first. -/
theorem Program.le_of_mem_registryFrom {entry : Nat × Value}
    (member : entry ∈ registryFrom line slots) : line ≤ entry.1 := by
  rw [registryFrom, List.mem_filterMap] at member
  obtain ⟨⟨slot, n⟩, inside, noted⟩ := member
  obtain ⟨value, -, rfl⟩ := Option.map_eq_some_iff.mp noted
  exact (List.mem_zipIdx inside).1

/-- A line is looked up in a registry with the value of its slot. -/
theorem Program.lookup_registryFrom (line i : Nat) (slots : List Slot) :
    (registryFrom line slots).lookup (line + i) = slots[i]?.bind Slot.value? := by
  induction slots generalizing line i with
  | nil => rfl
  | cons slot rest ih =>
    cases i with
    | zero =>
      cases held : slot.value? with
      | some value => simp [registryFrom_cons_of_value held, held]
      | none =>
        have absent : (registryFrom (line + 1) rest).lookup line = none := by
          rw [List.lookup_eq_none_iff]
          intro entry member
          have later := le_of_mem_registryFrom member
          simp
          omega
        simp [registryFrom_cons_of_none held, held, absent]
    | succ i =>
      have shift : line + (i + 1) = line + 1 + i := by omega
      have other : (line + 1 + i == line) = false := by
        rw [beq_eq_false_iff_ne]
        omega
      rw [List.getElem?_cons_succ, shift, ← ih (line + 1) i]
      cases held : slot.value? with
      | some value => rw [registryFrom_cons_of_value held, List.lookup_cons, other]
      | none => rw [registryFrom_cons_of_none held]

/-- A value noted for a line before all others comes first. -/
theorem Session.note_of_lt {index : Nat} {entries : List (Nat × Value)}
    (before : ∀ entry ∈ entries, index < entry.1) :
    note index value entries = (index, value) :: entries := by
  cases entries with
  | nil => rfl
  | cons entry rest => rw [note, if_pos (before entry List.mem_cons_self)]

/-- Noting the value that a slot has got gives the registry of the slots with it. -/
theorem Session.note_registryFrom (line i : Nat) (slots : List Slot) (bound : i < slots.length)
    (held : slot.value? = some value) :
    note (line + i) value (Program.registryFrom line slots) =
      Program.registryFrom line (slots.set i slot) := by
  induction slots generalizing line i with
  | nil => cases bound
  | cons first rest ih =>
    cases i with
    | zero =>
      rw [List.set_cons_zero, Program.registryFrom_cons_of_value held, Nat.add_zero]
      cases old : first.value? with
      | some value' =>
        rw [Program.registryFrom_cons_of_value old, note, if_neg (Nat.lt_irrefl line), if_pos rfl]
      | none =>
        rw [Program.registryFrom_cons_of_none old]
        exact note_of_lt fun entry member => Program.le_of_mem_registryFrom member
    | succ i =>
      have shift : line + (i + 1) = line + 1 + i := by omega
      have later := ih (line + 1) i (Nat.lt_of_succ_lt_succ bound)
      rw [List.set_cons_succ, shift]
      cases old : first.value? with
      | some value' =>
        rw [Program.registryFrom_cons_of_value old, Program.registryFrom_cons_of_value old, note,
          if_neg (by omega), if_neg (by omega), later]
      | none =>
        rw [Program.registryFrom_cons_of_none old, Program.registryFrom_cons_of_none old, later]

end Registry

/-! ## Queries that follow the program -/

/-- The registry that a session keeps is the one its program would make, and the index of every slot
is the number of its line. -/
structure Session.Coherent (s : Session) : Prop where
  kept : ∀ entries, s.registry? = some entries → entries = s.program.registry
  indexed : s.program.Indexed

theorem Session.coherent_fresh {p : Program} (indexed : p.Indexed) : (Session.fresh p).Coherent :=
  ⟨nofun, indexed⟩

namespace Query

/-- A query ends with an answer or a fault, in a coherent session with the given program. -/
def Ends {α : Type} (q : Query α) (s : Session) (p : Program) (answer : Except Fault α) : Prop :=
  ∃ t : Session, q s = (answer, t) ∧ t.program = p ∧ t.Coherent

/-- A query leaves the program alone and answers what the program itself would. -/
def Reads {α : Type} (q : Query α) (question : Program → Except Fault α) : Prop :=
  ∀ s : Session, s.Coherent → q.Ends s s.program (question s.program)

/-- A query overwrites the program, or fails and leaves what the change itself would leave. -/
structure Changes (q : Query Unit) (change : Program → Except Program.Interruption Program) :
    Prop where
  ok : ∀ (s : Session) (next : Program), s.Coherent → change s.program = .ok next →
    q.Ends s next (.ok ())
  error : ∀ (s : Session) (stopped : Program.Interruption), s.Coherent →
    change s.program = .error stopped → q.Ends s stopped.program (.error stopped.fault)

section Bind

variable {α β : Type} {q : Query α} {rest : α → Query β} {s t : Session}

theorem bind_of_ok {a : α} (h : q s = (.ok a, t)) : (q >>= rest) s = rest a t := by
  change StateT.bind q (ExceptT.bindCont rest) s = _
  rw [StateT.bind, h]
  rfl

theorem bind_of_error {fault : Fault} (h : q s = (.error fault, t)) :
    (q >>= rest) s = (.error fault, t) := by
  change StateT.bind q (ExceptT.bindCont rest) s = _
  rw [StateT.bind, h]
  rfl

/-- After a query that succeeds, the next one decides how both end. -/
theorem Ends.bind {p p' : Program} {a : α} {answer : Except Fault β} (first : q.Ends s p (.ok a))
    (next : ∀ t : Session, t.Coherent → t.program = p → (rest a).Ends t p' answer) :
    (q >>= rest).Ends s p' answer := by
  obtain ⟨t, hq, program, coherent⟩ := first
  obtain ⟨u, hrest, ends⟩ := next t coherent program
  exact ⟨u, (bind_of_ok hq).trans hrest, ends⟩

theorem Ends.of_eq {p : Program} {answer : Except Fault α} {q' : Query α} (same : q s = q' s)
    (ends : q'.Ends s p answer) : q.Ends s p answer := by
  unfold Ends at ends ⊢
  rwa [same]

/-- A query that fails is the end. -/
theorem Ends.bind_error {p : Program} {fault : Fault} (first : q.Ends s p (.error fault)) :
    (q >>= rest).Ends s p (.error fault) := by
  obtain ⟨t, hq, ends⟩ := first
  exact ⟨t, bind_of_error hq, ends⟩

theorem reads_ask (question : Program → Except Fault α) : (Session.ask question).Reads question :=
  fun s coherent => ⟨s, rfl, rfl, coherent⟩

theorem reads_pure (a : α) : (pure a : Query α).Reads fun _ => .ok a :=
  fun s coherent => ⟨s, rfl, rfl, coherent⟩

theorem reads_throw (fault : Fault) : (throw fault : Query α).Reads fun _ => .error fault :=
  fun s coherent => ⟨s, rfl, rfl, coherent⟩

/-- Two readings in a row. -/
theorem Reads.bind {question : Program → Except Fault α} {more : α → Program → Except Fault β}
    (first : q.Reads question) (next : ∀ a, (rest a).Reads (more a)) :
    (q >>= rest).Reads fun p => question p >>= fun a => more a p := by
  intro s coherent
  have ends := first s coherent
  show Ends _ s s.program (question s.program >>= fun a => more a s.program)
  cases answer : question s.program with
  | error fault =>
    rw [answer] at ends
    exact ends.bind_error
  | ok a =>
    rw [answer] at ends
    refine ends.bind fun t coherent' same => ?_
    rw [← same]
    exact next a t coherent'

/-- A reading whose answer is put in another form. -/
theorem Reads.map {question : Program → Except Fault α} (reads : q.Reads question) (form : α → β) :
    (q >>= fun a => pure (form a)).Reads fun p => (question p).map form := by
  intro s coherent
  have both := reads.bind (fun a => reads_pure (form a)) s coherent
  have same : (question s.program >>= fun a => Except.ok (form a)) =
      (question s.program).map form := by
    cases question s.program <;> rfl
  show Ends _ s s.program ((question s.program).map form)
  rw [← same]
  exact both

/-- A reading, then a change. -/
theorem Reads.bind_changes {question : Program → Except Fault α} {change : α → Query Unit}
    {spec : α → Program → Except Program.Interruption Program} (first : q.Reads question)
    (next : ∀ a, (change a).Changes (spec a)) :
    (q >>= change).Changes fun p => p.attempt (question p) >>= fun a => spec a p := by
  refine ⟨fun s p coherent changed => ?_, fun s stopped coherent failed => ?_⟩
  · have ends := first s coherent
    cases answer : question s.program with
    | error fault =>
      rw [answer] at changed
      cases changed
    | ok a =>
      rw [answer] at ends changed
      refine ends.bind fun t coherent' same => ?_
      refine (next a).ok t p coherent' ?_
      rw [same]
      exact changed
  · have ends := first s coherent
    cases answer : question s.program with
    | error fault =>
      rw [answer] at ends failed
      cases failed
      exact ends.bind_error
    | ok a =>
      rw [answer] at ends failed
      refine ends.bind fun t coherent' same => ?_
      refine (next a).error t stopped coherent' ?_
      rw [same]
      exact failed

end Bind

end Query

namespace Session

open Query

variable {op : Operation} {call : Program.Call} {catalog : Catalog}

/-! ## Values and operands -/

theorem registry_of_kept {s : Session} {entries : List (Nat × Value)}
    (kept : s.registry? = some entries) : registry s = (.ok entries, s) := by
  have start : (get : Query Session) s = (.ok s, s) := rfl
  rw [registry, bind_of_ok start, kept]
  rfl

theorem registry_of_none {s : Session} (missing : s.registry? = none) :
    registry s = (.ok s.program.registry, { s with registry? := some s.program.registry }) := by
  have start : (get : Query Session) s = (.ok s, s) := rfl
  rw [registry, bind_of_ok start, missing]
  rfl

theorem reads_registry : registry.Reads fun p => .ok p.registry := by
  intro s coherent
  cases kept : s.registry? with
  | some entries =>
    refine ⟨s, ?_, rfl, coherent⟩
    rw [registry_of_kept kept, coherent.kept entries kept]
  | none =>
    refine ⟨_, registry_of_none kept, rfl, ?_, coherent.indexed⟩
    intro entries noted
    exact (Option.some.inj noted).symm

/-- The value of a line in the registry is the value of its slot. -/
theorem lookup_registry {p : Program} (indexed : p.Indexed) {index : Int} {slot : Slot}
    (found : p.slot? index = some slot) : p.registry.lookup index.toNat = slot.value? := by
  obtain ⟨i, rfl, held⟩ := Program.exists_of_slot? found
  rw [indexed.registry_eq, Int.toNat_natCast, Nat.add_comm, Program.lookup_registryFrom, held]
  rfl

/-- Looking a value up in the registry is reading it off its slot. -/
theorem reads_valueAt (index : Int) (line : Option Int) :
    (valueAt index line).Reads fun p => p.valueAt index line := by
  intro s coherent
  have start : (ask fun p => .ok (p.slot? index)).Ends s s.program (.ok (s.program.slot? index)) :=
    reads_ask _ s coherent
  unfold valueAt Program.valueAt
  refine start.bind fun t coherent' same => ?_
  simp only [← same]
  cases found : t.program.slot? index with
  | none =>
    dsimp only
    split
    · exact reads_ask _ t coherent'
    · exact reads_throw _ t coherent'
  | some slot =>
    refine (reads_registry t coherent').bind fun u coherent'' same' => ?_
    rw [← same'] at found ⊢
    simp only [lookup_registry coherent''.indexed found]
    cases slot.value? with
    | none => exact reads_throw _ u coherent''
    | some value => exact reads_pure value u coherent''

theorem reads_resolveOperand (operand : Int) (expected : Kind) :
    (resolveOperand op call operand expected).Reads fun p =>
      p.resolveOperand op call operand expected := by
  unfold resolveOperand Program.resolveOperand
  split
  · split
    · exact reads_ask _
    · exact reads_throw _
  · refine (reads_valueAt operand call.line).bind fun value => ?_
    split
    · exact reads_pure value
    · exact reads_ask _

theorem reads_resolveAll (pairs : List (Int × Kind)) :
    (resolveAll op call pairs).Reads fun p => p.resolveAll op call pairs := by
  induction pairs with
  | nil => exact reads_pure []
  | cons pair rest ih =>
    exact (reads_resolveOperand pair.1 pair.2).bind fun value =>
      ih.bind fun values => reads_pure (value :: values)

theorem reads_resolve : (resolve op call).Reads fun p => p.resolve op call := by
  unfold resolve Program.resolve
  split
  · exact reads_ask _
  · exact reads_resolveAll _

theorem reads_resolveAt (index : Int) :
    (resolveAt catalog index).Reads fun p => p.resolveAt catalog index :=
  (reads_ask _).bind fun _ => (reads_ask _).bind fun _ => (reads_ask _).bind fun _ => reads_resolve

theorem reads_compute : (compute catalog call).Reads fun p => p.compute catalog call := by
  unfold compute Program.compute
  cases catalog.find? call.name with
  | none => exact reads_ask _
  | some op => exact reads_resolve.bind fun operands => (reads_ask _).bind fun ground => reads_ask _

/-! ## Changes -/

theorem overwrite_of_ok {change : Program → Except Fault Program} {s : Session} {next : Program}
    (h : change s.program = .ok next) :
    overwrite change s = (.ok (), { s with program := next }) := by
  have asked : ask change s = (.ok next, s) := by rw [ask, h]
  exact bind_of_ok asked

theorem overwrite_of_error {change : Program → Except Fault Program} {s : Session} {fault : Fault}
    (h : change s.program = .error fault) : overwrite change s = (.error fault, s) := by
  have asked : ask change s = (.error fault, s) := by rw [ask, h]
  exact bind_of_error asked

theorem changes_throw (fault : Fault) :
    (throw fault : Query Unit).Changes fun p => .error ⟨p, fault⟩ := by
  refine ⟨fun s next coherent changed => ?_, fun s _ coherent failed => ?_⟩
  · cases changed
  · cases failed
    exact reads_throw fault s coherent

/-- A registry stays right when slots are overwritten without getting or losing a value. -/
theorem changes_overwrite {change : Program → Except Fault Program}
    (same : ∀ p next, p.Indexed → change p = .ok next →
      next.Indexed ∧ next.registry = p.registry) :
    (overwrite change).Changes fun p => p.attempt (change p) := by
  refine ⟨fun s next coherent changed => ?_, fun s stopped coherent failed => ?_⟩
  · have changed : change s.program = .ok next := mapError_eq_ok_iff.mp changed
    obtain ⟨indexed, registry⟩ := same _ _ coherent.indexed changed
    refine ⟨_, overwrite_of_ok changed, rfl, fun entries kept => ?_, indexed⟩
    rw [registry]
    exact coherent.kept entries kept
  · obtain ⟨fault, refused, rfl⟩ := mapError_eq_error_iff.mp failed
    exact ⟨s, overwrite_of_error refused, rfl, coherent⟩

/-- The registry after a call was overwritten is the old one with the value noted, and noting the
value once more changes nothing. -/
theorem note_registry_of_write {p next : Program} (indexed : p.Indexed) {index : Int}
    {value : Value} (written : p.write index value = .ok next) : next.Indexed ∧
      note index.toNat value p.registry = next.registry ∧
        note index.toNat value next.registry = next.registry := by
  rcases Program.write_cases indexed index value with
    ⟨fault, failed⟩ | ⟨i, line, name, operands, rfl, found⟩
  · cases written.symm.trans failed
  · rw [Program.write_of_call found] at written
    cases written
    have bound := (List.getElem?_eq_some_iff.mp found).1
    have becomes : Slot.Becomes ⟨i + 1, line, .call name operands⟩
      ⟨i + 1, line, .result name value⟩ := .result
    have indexed' := (Program.becomes_set found becomes).indexed indexed
    have noted (slots : List Slot) (inside : i < slots.length) :=
      note_registryFrom 1 i slots inside
        (show Slot.value? ⟨i + 1, line, .result name value⟩ = some value from rfl)
    have again := noted (p.slots.set i ⟨i + 1, line, .result name value⟩) (by simpa using bound)
    rw [List.set_set] at again
    have place : ((i + 1 : Nat) : Int).toNat = 1 + i := by omega
    rw [indexed.registry_eq, indexed'.registry_eq, place]
    exact ⟨indexed', noted p.slots bound, again⟩

/-- Once the call is overwritten and its value noted, all that can fail is the report. -/
theorem ends_replace_of_write {s : Session} {next : Program} {index : Int} {value : Value}
    (coherent : s.Coherent) (written : s.program.write index value = .ok next) :
    (replace index value).Ends s next
      (if s.program.reports index value then .ok () else .error .notSpelled) := by
  obtain ⟨indexed, noted, again⟩ := note_registry_of_write coherent.indexed written
  have asked : ask (fun p => .ok (p.reports index value)) s =
      (.ok (s.program.reports index value), s) := rfl
  have overwritten : (overwrite fun p => p.write index value) s =
      (.ok (), { s with program := next }) := overwrite_of_ok written
  -- The registry is kept from before the replacement, or made after it.
  have completed (entries : List (Nat × Value)) (t : Session) (same : t.program = next)
      (complete : note index.toNat value entries = next.registry)
      (made : registry { s with program := next } = (.ok entries, t)) :
      (replace index value).Ends s next
        (if s.program.reports index value then .ok () else .error .notSpelled) := by
    refine ⟨{ t with registry? := some (note index.toNat value entries) }, ?_, same, ?_, ?_⟩
    · refine (bind_of_ok asked).trans ((bind_of_ok overwritten).trans ((bind_of_ok made).trans ?_))
      cases s.program.reports index value <;> rfl
    · rintro _ ⟨⟩
      rw [complete, ← same]
    · rw [same]
      exact indexed
  cases kept : s.registry? with
  | some entries =>
    refine completed entries { s with program := next } rfl ?_ ?_
    · rw [coherent.kept entries kept, noted]
    · exact registry_of_kept kept
  | none =>
    exact completed next.registry ⟨next, some next.registry⟩ rfl again (registry_of_none kept)

theorem changes_replace (index : Int) (value : Value) :
    (replace index value).Changes fun p => p.replace index value := by
  refine ⟨fun s next coherent changed => ?_, fun s stopped coherent failed => ?_⟩
  · cases written : s.program.write index value with
    | error fault =>
      rw [Program.replace, written] at changed
      cases changed
    | ok made =>
      have ends := ends_replace_of_write coherent written
      rw [Program.replace, written, Program.attempt_ok] at changed
      cases reported : s.program.reports index value <;> rw [reported] at changed ends <;>
        cases changed
      exact ends
  · cases written : s.program.write index value with
    | error fault =>
      rw [Program.replace, written] at failed
      cases failed
      have asked : ask (fun p => .ok (p.reports index value)) s =
        (.ok (s.program.reports index value), s) := rfl
      refine ⟨s, ?_, rfl, coherent⟩
      exact (bind_of_ok asked).trans (bind_of_error (overwrite_of_error written))
    | ok made =>
      have ends := ends_replace_of_write coherent written
      rw [Program.replace, written, Program.attempt_ok] at failed
      cases reported : s.program.reports index value <;> rw [reported] at failed ends <;>
        cases failed
      exact ends

theorem changes_evaluateCall :
    (evaluateCall catalog call).Changes fun p => p.evaluateCall catalog call :=
  reads_compute.bind_changes fun value => changes_replace call.index value

theorem changes_evaluate (index : Int) :
    (evaluate catalog index).Changes fun p => p.evaluate catalog index := by
  unfold evaluate Program.evaluate
  refine (reads_ask _).bind_changes fun slot => ?_
  cases slot.content with
  | result name value =>
    dsimp only
    cases catalog.find? name with
    | none => exact changes_throw _
    | some op => exact changes_throw _
  | ground | set | relation | call =>
    exact (reads_ask _).bind_changes fun call => changes_evaluateCall

/-! ## Runs -/

/-- How a run ends for the one who asked for it. -/
def outcome : Option Fault → Except Fault Unit
  | none => .ok ()
  | some fault => .error fault

theorem runLines_cons_of_call {s : Session} {index : Nat} {rest : List Nat}
    (called : index ∈ s.program.calls) : runLines catalog (index :: rest) s =
      (evaluate catalog index >>= fun _ => runLines catalog rest) s := by
  have asked : ask (fun p => .ok p.calls) s = (.ok s.program.calls, s) := rfl
  rw [runLines, bind_of_ok asked, if_pos called]

theorem runLines_cons_of_value {s : Session} {index : Nat} {rest : List Nat}
    (settled : index ∉ s.program.calls) :
    runLines catalog (index :: rest) s = runLines catalog rest s := by
  have asked : ask (fun p => .ok p.calls) s = (.ok s.program.calls, s) := rfl
  rw [runLines, bind_of_ok asked, if_neg settled]

/-- Lines that hold a call when their turn comes are those that held one from the start. -/
theorem ends_runLines {lines : List Nat} {s : Session} {done : Program} {fault? : Option Fault}
    (coherent : s.Coherent) (different : lines.Nodup)
    (runs : Program.runLines catalog (lines.filter fun line => decide (line ∈ s.program.calls))
      s.program = (done, fault?)) : (runLines catalog lines).Ends s done (outcome fault?) := by
  induction lines generalizing s with
  | nil =>
    cases runs
    exact reads_pure () s coherent
  | cons index rest ih =>
    obtain ⟨notLater, different⟩ := List.nodup_cons.mp different
    by_cases called : index ∈ s.program.calls
    · rw [List.filter_cons, if_pos (by simpa using called)] at runs
      refine .of_eq (runLines_cons_of_call called) ?_
      cases evaluated : s.program.evaluate catalog index with
      | error fault =>
        rw [Program.runLines_cons_of_error evaluated] at runs
        cases runs
        exact ((changes_evaluate index).error s fault coherent evaluated).bind_error
      | ok next =>
        rw [Program.runLines_cons_of_ok evaluated] at runs
        have settled := (changes_evaluate index).ok s next coherent evaluated
        refine settled.bind fun t coherent' same => ?_
        refine ih coherent' different ?_
        have indexed : next.Indexed := same ▸ coherent'.indexed
        rw [same, ← runs]
        congr 1
        refine List.filter_congr fun line member => ?_
        have other : line ≠ index := fun equal => notLater (equal ▸ member)
        simp only [Program.mem_calls_of_evaluate coherent.indexed indexed evaluated, other, ne_eq,
          not_false_eq_true, and_true]
    · rw [List.filter_cons, if_neg (by simpa using called)] at runs
      exact .of_eq (runLines_cons_of_value called) (ih coherent different runs)

/-- A run of a session is the run of its program. -/
theorem ends_run {s : Session} {done : Program} {fault? : Option Fault} (coherent : s.Coherent)
    (runs : s.program.run catalog = (done, fault?)) :
    (run catalog).Ends s done (outcome fault?) := by
  have counted : (ask fun p => .ok p.size).Ends s s.program (.ok s.program.size) :=
    reads_ask _ s coherent
  refine counted.bind fun t coherent' same => ends_runLines coherent' List.nodup_range' ?_
  rw [same, coherent.indexed.filter_calls]
  exact runs

/-! ## Steps -/

/-- A change, and then a reading of what it led to. -/
theorem ends_change {change : Query Unit} {spec : Program → Except Program.Interruption Program}
    (changes : change.Changes spec) (request : Program.Step) {s : Session}
    (coherent : s.Coherent) :
    (change >>= fun _ => ask fun p => p.read catalog request).Ends s
      (Program.change catalog request (spec s.program)).1
        (Program.change catalog request (spec s.program)).2 := by
  cases changed : spec s.program with
  | error stopped => exact (changes.error s stopped coherent changed).bind_error
  | ok next =>
    refine (changes.ok s next coherent changed).bind fun t coherent' same => ?_
    simp only [Program.change, ← same]
    exact reads_ask _ t coherent'

/-- Overwriting the operands of a call gives no line a value and takes none. -/
theorem registry_setOperands {p next : Program} {index : Int} {operands : List Int}
    (indexed : p.Indexed) (changed : p.setOperands index operands = .ok next) :
    next.Indexed ∧ next.registry = p.registry := by
  have indexed' := (Program.becomes_of_setOperands changed).indexed indexed
  refine ⟨indexed', ?_⟩
  rw [indexed.registry_eq, indexed'.registry_eq]
  refine Program.registryFrom_congr 1 ?_
  obtain ⟨⟨number, line, content⟩, hslot, written⟩ := bind_eq_ok_iff.mp changed
  obtain ⟨i, rfl, found⟩ := Program.exists_of_slot? (Program.slot_eq_ok_iff_slot?.mp hslot)
  cases content with
  | call name old =>
    cases written
    -- The slot had no value, and the call with other operands has none either.
    have lacking : (p.slots.map Slot.value?)[i]? = some none := by
      rw [List.getElem?_map, found]
      rfl
    obtain ⟨bound, held⟩ := List.getElem?_eq_some_iff.mp lacking
    rw [Program.setSlot, List.map_set]
    show (p.slots.map Slot.value?).set i none = _
    rw [← held, List.set_getElem_self]
  | ground | set | relation | result => cases written

/-- **A registry that is kept changes no answer.**  A step of a coherent session gives the answer or
the fault that the step of its program gives, and leaves the program that this step leaves; the
session stays coherent. -/
theorem ends_query (request : Program.Step) {s : Session} (coherent : s.Coherent) :
    (query catalog request).Ends s (s.program.step catalog request).1
      (s.program.step catalog request).2 := by
  cases request with
  | size | text | slots | slot | calls | ground =>
    exact reads_ask (fun p => p.read catalog _) s coherent
  | valueAt index line => exact (reads_valueAt index line).map _ s coherent
  | registry => exact reads_registry.map _ s coherent
  | resolve index => exact (reads_resolveAt index).map _ s coherent
  | replace index value =>
    exact ends_change (changes_replace index value) (.replace index value) coherent
  | evaluate index => exact ends_change (changes_evaluate index) (.evaluate index) coherent
  | setOperands index operands =>
    exact ends_change (changes_overwrite fun _ _ => registry_setOperands)
      (.setOperands index operands) coherent
  | run =>
    rw [Program.step]
    rcases runs : s.program.run catalog with ⟨done, _ | fault⟩
    · refine (ends_run coherent runs).bind fun t coherent' same => ?_
      rw [← same]
      exact reads_ask (fun p => p.read catalog .run) t coherent'
    · exact (ends_run coherent runs).bind_error

/-- A step of a session, seen from outside. -/
theorem step_eq (s : Session) (catalog : Catalog) (coherent : s.Coherent)
    (request : Program.Step) :
    (s.step catalog request).1.program = (s.program.step catalog request).1 ∧
      (s.step catalog request).2 = (s.program.step catalog request).2 ∧
        (s.step catalog request).1.Coherent := by
  obtain ⟨t, ends, program, coherent'⟩ : (query catalog request).Ends s _ _ :=
    ends_query request coherent
  have after : s.step catalog request = (t, (s.program.step catalog request).2) := by
    rw [step, ends]
  rw [after]
  exact ⟨program, rfl, coherent'⟩

end Session

end RelCalc
