import Brunix.Basis.Loop
import Mathlib.Data.Fintype.Order

/-!
# A program and its interruptions

A program is a tree of commands. Each is answered by the system it runs on, and the rest of the
program depends on the answer. Between two commands any number of events may happen to the system, so
a run is given by a schedule that says at each point whose turn it is. One program can run on two
systems, one that does the work and a model that says what the work is, and the rule for that is a
simulation of single commands and events. What a command may rely on, because earlier commands set it
up, is the phase of a protocol that the program keeps to. Events do not change the phase, but not every
event may come in every phase.
-/

namespace Basis

/-- A program over commands `κ` that are answered by `ρ`. -/
inductive Program (κ ρ : Type)
  | done : Program κ ρ
  | command (c : κ) (next : ρ → Program κ ρ) : Program κ ρ

namespace Program

variable {κ ρ φ : Type}

def andThen : Program κ ρ → Program κ ρ → Program κ ρ
  | done, rest => rest
  | command c next, rest => command c fun reply => (next reply).andThen rest

def ofList : List κ → Program κ ρ
  | [] => done
  | c :: cs => command c fun _ => ofList cs

theorem andThen_done (program : Program κ ρ) : program.andThen done = program := by
  induction program with
  | done => rfl
  | command c next ih => exact congrArg (command c) (funext ih)

theorem ofList_append (cs cs' : List κ) :
    (ofList (cs ++ cs') : Program κ ρ) = (ofList cs).andThen (ofList cs') := by
  induction cs with
  | nil => rfl
  | cons c cs ih => exact congrArg (command c) (funext fun _ => ih)

/-- Whatever the answers are, the protocol allows every command, and the program ends in the phase
`last`. -/
def Leads (protocol : κ → φ → Option φ) : Program κ ρ → φ → φ → Prop
  | done, phase, last => phase = last
  | command c next, phase, last =>
      ∃ phase', protocol c phase = some phase' ∧ ∀ reply, (next reply).Leads protocol phase' last

section Leads

variable {protocol : κ → φ → Option φ}

theorem Leads.andThen {first rest : Program κ ρ} {phase mid last : φ}
    (hfirst : first.Leads protocol phase mid) (hrest : rest.Leads protocol mid last) :
    (first.andThen rest).Leads protocol phase last := by
  induction first generalizing phase with
  | done =>
      obtain rfl : phase = mid := hfirst
      exact hrest
  | command c next ih =>
      obtain ⟨phase', hprotocol, hnext⟩ := hfirst
      exact ⟨phase', hprotocol, fun reply => ih reply (hnext reply)⟩

theorem leads_append {cs cs' : List κ} {phase : φ} (mid : φ) {last : φ}
    (hfirst : (ofList cs : Program κ ρ).Leads protocol phase mid)
    (hrest : (ofList cs' : Program κ ρ).Leads protocol mid last) :
    (ofList (cs ++ cs') : Program κ ρ).Leads protocol phase last := by
  rw [ofList_append]
  exact hfirst.andThen hrest

theorem leads_single {c : κ} {phase phase' : φ} (h : protocol c phase = some phase') :
    (ofList [c] : Program κ ρ).Leads protocol phase phase' :=
  ⟨phase', h, fun _ => rfl⟩

theorem leads_ofList {cs : List κ} {phase : φ} (h : ∀ c ∈ cs, protocol c phase = some phase) :
    (ofList cs : Program κ ρ).Leads protocol phase phase := by
  induction cs with
  | nil => rfl
  | cons c cs ih => exact ⟨phase, h c (by simp), fun _ => ih fun c hc => h c (by simp [hc])⟩

end Leads

def Within : Program κ ρ → Nat → Prop
  | done, _ => True
  | command _ _, 0 => False
  | command _ next, bound + 1 => ∀ reply, (next reply).Within bound

theorem Within.mono {program : Program κ ρ} {m n : Nat} (h : program.Within m) (hle : m ≤ n) :
    program.Within n := by
  induction program generalizing m n with
  | done => trivial
  | command c next ih =>
      cases m with
      | zero => exact absurd h id
      | succ m =>
          cases n with
          | zero => omega
          | succ n => exact fun reply => ih reply (h reply) (by omega)

/-- There are finitely many answers to a command, and so there is a bound for a program. -/
theorem exists_within [Finite ρ] (program : Program κ ρ) : ∃ bound, program.Within bound := by
  induction program with
  | done => exact ⟨0, trivial⟩
  | command c next ih =>
      choose bound hbound using ih
      obtain ⟨most, hmost⟩ := Finite.exists_le bound
      exact ⟨most + 1, fun reply => (hbound reply).mono (hmost reply)⟩

end Program

/-! ### Interleavings -/

/-- The elements of two lists in one, each list in its own order. -/
inductive Interleaves {α : Type} : List α → List α → List α → Prop
  | nil : Interleaves [] [] []
  | left {xs ys zs : List α} (x : α) (h : Interleaves xs ys zs) : Interleaves (x :: xs) ys (x :: zs)
  | right {xs ys zs : List α} (y : α) (h : Interleaves xs ys zs) : Interleaves xs (y :: ys) (y :: zs)

namespace Interleaves

variable {α : Type} {xs ys zs : List α}

theorem append_right (h : Interleaves xs ys zs) (ws : List α) :
    Interleaves xs (ws ++ ys) (ws ++ zs) := by
  induction ws with
  | nil => exact h
  | cons w ws ih => exact .right w ih

theorem filter_eq (h : Interleaves xs ys zs) {p : α → Bool} (hxs : ∀ x ∈ xs, p x = true)
    (hys : ∀ y ∈ ys, p y = false) : zs.filter p = xs := by
  induction h with
  | nil => rfl
  | left x h ih =>
      rw [List.filter_cons_of_pos (hxs x List.mem_cons_self),
        ih (fun x hx => hxs x (List.mem_cons_of_mem _ hx)) hys]
  | right y h ih =>
      rw [List.filter_cons_of_neg (by simp [hys y List.mem_cons_self]),
        ih hxs fun y hy => hys y (List.mem_cons_of_mem _ hy)]

end Interleaves

/-! ### Runs -/

/-- What commands and events do, when they are defined. A program makes no further step in a stopped
state. -/
structure System (σ κ ρ ε : Type) where
  exec : κ → σ → Option (σ × ρ)
  event : ε → σ → Option σ
  stopped : σ → Bool

/-- A system in which everything is defined. -/
structure Model (τ κ ρ ε : Type) where
  exec : κ → τ → τ × ρ
  event : ε → τ → τ
  stopped : τ → Bool

section Runs

variable {σ τ κ ρ ε φ : Type}

def turns (schedule : List (Option ε)) : Nat := schedule.countP Option.isNone

theorem turns_event (e : ε) (schedule : List (Option ε)) :
    turns (some e :: schedule) = turns schedule :=
  List.countP_cons_of_neg Bool.false_ne_true

theorem turns_none (schedule : List (Option ε)) :
    turns (none :: schedule) = turns schedule + 1 :=
  List.countP_cons_of_pos rfl

namespace System

def step (system : System σ κ ρ ε) (run : Program κ ρ × σ) : Option ε → Option (Program κ ρ × σ)
  | none =>
      match run.1 with
      | .done => some run
      | .command c next =>
          if system.stopped run.2 then some run
          else (system.exec c run.2).map fun result => (next result.2, result.1)
  | some event => (system.event event run.2).map fun s => (run.1, s)

def run (system : System σ κ ρ ε) (schedule : List (Option ε)) (program : Program κ ρ) (s : σ) :
    Option (Program κ ρ × σ) :=
  schedule.foldlM system.step (program, s)

end System

namespace Model

def step (model : Model τ κ ρ ε) (run : Program κ ρ × τ) : Option ε → Program κ ρ × τ
  | none =>
      match run.1 with
      | .done => run
      | .command c next =>
          if model.stopped run.2 then run
          else (next (model.exec c run.2).2, (model.exec c run.2).1)
  | some event => (run.1, model.event event run.2)

def run (model : Model τ κ ρ ε) (schedule : List (Option ε)) (program : Program κ ρ) (t : τ) :
    Program κ ρ × τ :=
  schedule.foldl model.step (program, t)

end Model

/-! ### Refinement -/

/-- The system does what the model says, in every phase of the protocol, and gives the same
answers. -/
structure Refines (system : System σ κ ρ ε) (model : Model τ κ ρ ε) (protocol : κ → φ → Option φ)
    (allowed : φ → ε → Prop) (R : φ → σ → τ → Prop) : Prop where
  stopped : ∀ {phase s t}, R phase s t → system.stopped s = model.stopped t
  exec : ∀ {phase phase' s t} (c : κ), protocol c phase = some phase' → R phase s t →
    model.stopped t = false →
    ∃ s', system.exec c s = some (s', (model.exec c t).2) ∧ R phase' s' (model.exec c t).1
  event : ∀ {phase s t} (e : ε), allowed phase e → R phase s t →
    ∃ s', system.event e s = some s' ∧ R phase s' (model.event e t)

/-- An event that may come in every phase a program passes on its way to `last`. -/
def Admits (ρ : Type) (protocol : κ → φ → Option φ) (allowed : φ → ε → Prop) (last : φ)
    (item : Option ε) : Prop :=
  ∀ e, item = some e → ∀ (program : Program κ ρ) (phase : φ),
    program.Leads protocol phase last → allowed phase e

variable {system : System σ κ ρ ε} {model : Model τ κ ρ ε} {protocol : κ → φ → Option φ}
  {allowed : φ → ε → Prop} {R : φ → σ → τ → Prop}

/-- The same program is left on both sides, it keeps to the protocol, and the states are related. -/
def Related (protocol : κ → φ → Option φ) (R : φ → σ → τ → Prop) (last : φ)
    (run : Program κ ρ × σ) (run' : Program κ ρ × τ) : Prop :=
  run.1 = run'.1 ∧ ∃ phase, run'.1.Leads protocol phase last ∧ R phase run.2 run'.2

theorem Refines.step (h : Refines system model protocol allowed R) {last : φ} {run : Program κ ρ × σ}
    {run' : Program κ ρ × τ} (hrel : Related protocol R last run run') {item : Option ε}
    (hadmits : Admits ρ protocol allowed last item) :
    ∃ next, system.step run item = some next ∧ Related protocol R last next (model.step run' item) := by
  obtain ⟨program, s⟩ := run
  obtain ⟨program', t⟩ := run'
  obtain ⟨hprogram, phase, hleads, hstates⟩ := hrel
  obtain rfl : program = program' := hprogram
  cases item with
  | some e =>
      obtain ⟨s', hevent, hstates'⟩ := h.event e (hadmits e rfl program phase hleads) hstates
      exact ⟨(program, s'), by rw [System.step, hevent]; rfl, rfl, phase, hleads, hstates'⟩
  | none =>
      cases program with
      | done => exact ⟨_, rfl, rfl, phase, hleads, hstates⟩
      | command c next =>
          simp only [System.step, Model.step, h.stopped hstates]
          by_cases hstopped : model.stopped t = true
          · rw [if_pos hstopped, if_pos hstopped]
            exact ⟨_, rfl, rfl, phase, hleads, hstates⟩
          · obtain ⟨phase', hprotocol, hnext⟩ := hleads
            obtain ⟨s', hexec, hstates'⟩ :=
              h.exec c hprotocol hstates (Bool.eq_false_iff.mpr hstopped)
            rw [if_neg hstopped, if_neg hstopped, hexec]
            exact ⟨_, rfl, rfl, phase', hnext _, hstates'⟩

/-- Under every schedule the system runs, and its state is what the model has come to. -/
theorem Refines.run (h : Refines system model protocol allowed R) {program : Program κ ρ}
    {phase last : φ} (hleads : program.Leads protocol phase last) {s : σ} {t : τ}
    (hstates : R phase s t) (schedule : List (Option ε))
    (hadmits : ∀ item ∈ schedule, Admits ρ protocol allowed last item) :
    ∃ s', system.run schedule program s = some ((model.run schedule program t).1, s')
      ∧ ∃ phase', (model.run schedule program t).1.Leads protocol phase' last
        ∧ R phase' s' (model.run schedule program t).2 := by
  obtain ⟨next, hrun, hprogram, hrel⟩ :=
    foldlM_simulation (f := system.step) (g := model.step) (Related protocol R last)
      (Admits ρ protocol allowed last) (fun _ _ _ hitem hrel => h.step hrel hitem) schedule hadmits
      (s := (program, s)) (t := (program, t)) ⟨rfl, phase, hleads, hstates⟩
  refine ⟨next.2, ?_, hrel⟩
  rw [System.run, hrun, Model.run, ← hprogram]

/-- A program that the model does not stop in is done after enough turns, wherever the events fall. -/
theorem Refines.run_done (h : Refines system model protocol allowed R) {last : φ}
    (hrunning : ∀ {c next phase s t}, (Program.command c next : Program κ ρ).Leads protocol phase last →
      R phase s t → model.stopped t = false)
    {schedule : List (Option ε)} (hadmits : ∀ item ∈ schedule, Admits ρ protocol allowed last item)
    {program : Program κ ρ} {phase : φ} (hleads : program.Leads protocol phase last) {s : σ} {t : τ}
    (hstates : R phase s t) {bound : Nat} (hwithin : program.Within bound)
    (hturns : bound ≤ turns schedule) : (model.run schedule program t).1 = .done := by
  induction schedule generalizing program phase s t bound with
  | nil =>
      cases program with
      | done => rfl
      | command c next =>
          obtain rfl : bound = 0 := Nat.le_zero.mp hturns
          exact absurd hwithin id
  | cons item schedule ih =>
      have hitem := hadmits item List.mem_cons_self
      have hlater (item : Option ε) (hmem : item ∈ schedule) :=
        hadmits item (List.mem_cons_of_mem _ hmem)
      cases item with
      | some e =>
          rw [turns_event] at hturns
          obtain ⟨s', -, hstates'⟩ := h.event e (hitem e rfl program phase hleads) hstates
          exact ih hlater hleads hstates' hwithin hturns
      | none =>
          rw [turns_none] at hturns
          cases program with
          | done =>
              have hzero : (Program.done : Program κ ρ).Within 0 := trivial
              exact ih hlater hleads hstates hzero (Nat.zero_le _)
          | command c next =>
              have hstopped := hrunning hleads hstates
              obtain ⟨phase', hprotocol, hnext⟩ := hleads
              obtain ⟨s', -, hstates'⟩ := h.exec c hprotocol hstates hstopped
              have hstep : model.step (Program.command c next, t) none
                  = (next (model.exec c t).2, (model.exec c t).1) :=
                if_neg (by rw [hstopped]; exact Bool.false_ne_true)
              change (schedule.foldl model.step (model.step (Program.command c next, t) none)).1 = _
              rw [hstep]
              cases bound with
              | zero => exact absurd hwithin id
              | succ bound => exact ih hlater (hnext _) hstates' (hwithin _) (by omega)

/-! ### Runs of a model -/

section OfList

variable {rest : Program κ ρ}

theorem Model.step_idle (model : Model τ κ ρ ε) {t : τ} (h : rest = .done ∨ model.stopped t = true) :
    model.step (rest, t) none = (rest, t) := by
  cases rest with
  | done => rfl
  | command c next =>
      obtain hdone | hstopped := h
      · cases hdone
      · exact if_pos hstopped

theorem Model.step_ofList (model : Model τ κ ρ ε) (rest : Program κ ρ) (c : κ) (left : List κ) {t : τ}
    (h : model.stopped t = false) :
    model.step ((Program.ofList (c :: left)).andThen rest, t) none
      = ((Program.ofList left).andThen rest, (model.exec c t).1) :=
  if_neg (by rw [h]; exact Bool.false_ne_true)

/-- A list of commands, wherever the events fall between them. What holds after the first commands is
kept by the events, and after the last one there is nothing left or the model has stopped. -/
theorem Model.run_ofList (model : Model τ κ ρ ε) {cs : List κ} (rest : Program κ ρ)
    (P : List κ → τ → Prop)
    (hevent : ∀ past t e, P past t → P past (model.event e t))
    (hexec : ∀ past c left t, cs = past ++ c :: left → P past t →
      model.stopped t = false ∧ P (past ++ [c]) (model.exec c t).1)
    (hend : ∀ t, P cs t → rest = .done ∨ model.stopped t = true)
    (schedule : List (Option ε)) {past left : List κ} (hcs : cs = past ++ left) {t : τ}
    (hinit : P past t) :
    (model.run schedule ((Program.ofList left).andThen rest) t).1
        = (Program.ofList (left.drop (turns schedule))).andThen rest
      ∧ P (past ++ left.take (turns schedule))
        (model.run schedule ((Program.ofList left).andThen rest) t).2 := by
  induction schedule generalizing past left t with
  | nil =>
      rw [show turns ([] : List (Option ε)) = 0 from rfl, List.take_zero, List.append_nil]
      exact ⟨rfl, hinit⟩
  | cons item schedule ih =>
      cases item with
      | some e =>
          rw [turns_event]
          exact ih hcs (hevent past t e hinit)
      | none =>
          rw [turns_none]
          cases left with
          | nil =>
              rw [List.append_nil] at hcs
              have hidle := model.step_idle (hend t (hcs ▸ hinit))
              have hrest := ih (by rw [hcs, List.append_nil]) hinit
              rw [List.drop_nil, List.take_nil] at hrest ⊢
              rwa [show model.run (none :: schedule) ((Program.ofList []).andThen rest) t
                = schedule.foldl model.step (model.step (rest, t) none) from rfl, hidle]
          | cons c left =>
              obtain ⟨hrunning, hnext⟩ := hexec past c left t hcs hinit
              have hgo := model.step_ofList rest c left hrunning
              have hcs' : cs = past ++ [c] ++ left := by rw [hcs, List.append_assoc]; rfl
              have hrest := ih hcs' hnext
              rw [List.append_assoc, List.singleton_append] at hrest
              rw [List.drop_succ_cons, List.take_succ_cons]
              rwa [show model.run (none :: schedule) ((Program.ofList (c :: left)).andThen rest) t
                = schedule.foldl model.step
                  (model.step ((Program.ofList (c :: left)).andThen rest, t) none) from rfl, hgo]

/-- A list of commands up to one that stops the model. Before it `P` holds, and after it `Q`. -/
theorem Model.run_until (model : Model τ κ ρ ε) {before : List κ} {c : κ} (rest : Program κ ρ)
    (P Q : τ → Prop)
    (hrunning : ∀ t, P t → model.stopped t = false) (hstopped : ∀ t, Q t → model.stopped t = true)
    (hevent : ∀ t e, P t → P (model.event e t)) (hafter : ∀ t e, Q t → Q (model.event e t))
    (hbefore : ∀ c' ∈ before, ∀ t, P t → P (model.exec c' t).1)
    (hstop : ∀ t, P t → Q (model.exec c t).1) (schedule : List (Option ε)) {t : τ} (hinit : P t) :
    let final := model.run schedule ((Program.ofList (before ++ [c])).andThen rest) t
    if turns schedule ≤ before.length
    then final.1 = (Program.ofList ((before ++ [c]).drop (turns schedule))).andThen rest ∧ P final.2
    else final.1 = rest ∧ Q final.2 := by
  intro final
  let S : List κ → τ → Prop := fun past t =>
    (past.length ≤ before.length → P t) ∧ (before.length < past.length → Q t)
  have hlength : (before ++ [c]).length = before.length + 1 := List.length_append
  have hevents (past : List κ) (t : τ) (e : ε) (h : S past t) : S past (model.event e t) :=
    ⟨fun hle => hevent t e (h.1 hle), fun hlt => hafter t e (h.2 hlt)⟩
  have hexec (past : List κ) (c' : κ) (left : List κ) (t : τ) (hcs : before ++ [c] = past ++ c' :: left)
      (h : S past t) : model.stopped t = false ∧ S (past ++ [c']) (model.exec c' t).1 := by
    obtain rfl | ⟨left, z, rfl⟩ := List.eq_nil_or_concat left
    · obtain ⟨rfl, heq⟩ := List.append_inj' hcs rfl
      obtain rfl := List.singleton_inj.mp heq
      have ht := h.1 (Nat.le_refl _)
      exact ⟨hrunning t ht, fun hle => by omega, fun _ => hstop t ht⟩
    · rw [List.concat_eq_append, ← List.cons_append, ← List.append_assoc] at hcs
      obtain ⟨rfl, -⟩ := List.append_inj' hcs rfl
      have ht := h.1 (by rw [List.length_append]; omega)
      refine ⟨hrunning t ht, fun _ => hbefore c' (by simp) t ht, fun hlt => ?_⟩
      simp only [List.length_append, List.length_cons, List.length_nil] at hlt
      omega
  have hend (t : τ) (h : S (before ++ [c]) t) : rest = .done ∨ model.stopped t = true :=
    .inr (hstopped t (h.2 (by omega)))
  obtain ⟨hprogram, hnear, hfar⟩ := model.run_ofList rest S hevents hexec hend schedule
    (List.nil_append _).symm ⟨fun _ => hinit, fun hlt => absurd hlt (Nat.not_lt_zero _)⟩
  rw [List.nil_append, List.length_take] at hnear hfar
  split
  · next hle => exact ⟨hprogram, hnear (by omega)⟩
  · next hlt =>
      refine ⟨?_, hfar (by omega)⟩
      rw [hprogram, List.drop_of_length_le (by omega)]
      rfl

end OfList

end Runs

end Basis
