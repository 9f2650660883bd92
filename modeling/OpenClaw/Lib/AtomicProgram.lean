import OpenClaw.Lib.Transition

/-!
# Programs of atomic operations

A program asks for one operation at a time and goes on with its answer. It can
be cut off before any of them. `Keeps` is what a program guarantees at each of
these points and at its end while others change the world as `rely` allows;
`Frames` bounds what its own operations change. A machine runs one program
after another, and a crash drops the one that runs.
-/

namespace OpenClaw.AtomicProgram

open Transition (System)

/-- `Ans o` is the type of the answers to `o`. `choose` leaves a choice to the
scheduler. -/
inductive Program {Op : Type} (Ans : Op → Type) (α : Type) where
  | pure (a : α)
  | request (o : Op) (next : Ans o → Program Ans α)
  | choose (next : Bool → Program Ans α)

namespace Program

variable {Op : Type} {Ans : Op → Type} {α β W C : Type}

def bind (p : Program Ans α) (f : α → Program Ans β) : Program Ans β :=
  match p with
  | .pure a => f a
  | .request o next => .request o fun a => (next a).bind f
  | .choose next => .choose fun b => (next b).bind f

instance : Monad (Program Ans) where
  pure := .pure
  bind := .bind

def ask (o : Op) : Program Ans (Ans o) :=
  .request o .pure

/-- A program about to ask for `o` next to another one; `resume` is the first
one after the answer. -/
def beside (o : Op) (next : Ans o → Program Ans Unit)
    (resume : Ans o → Program Ans Unit → Program Ans Unit) : Program Ans Unit → Program Ans Unit
  | .pure _ => .request o next
  | .choose next' => .choose fun b => beside o next resume (next' b)
  | .request o' next' => .choose fun b =>
    if b then .request o fun a => resume a (.request o' next')
    else .request o' fun a => beside o next resume (next' a)

/-- Two programs at once: the scheduler says whose operation comes next. -/
def par : Program Ans Unit → Program Ans Unit → Program Ans Unit
  | .pure _, q => q
  | .choose next, q => .choose fun b => (next b).par q
  | .request o next, q => beside o next (fun a q => (next a).par q) q

def allSettled (ps : List (Program Ans Unit)) : Program Ans Unit :=
  ps.foldr par (.pure ())

-- ---
-- What a program guarantees
-- ---

/-- How the world answers an operation. The last argument is what it is free to
choose. -/
abbrev Perform (Ans : Op → Type) (W C : Type) :=
  W → (o : Op) → C → Option (Ans o × W)

/-- As long as the others leave `view` alone, `I` holds before each operation
of the program and `post` when it ends. -/
def Keeps (perform : Perform Ans W C) (view : W → V) (I : W → Prop) (post : α → W → Prop) :
    Program Ans α → W → Prop
  | .pure a, w => ∀ w₁, view w₁ = view w → post a w₁
  | .request o next, w => ∀ w₁, view w₁ = view w → I w₁ ∧
      ∀ c a w₂, perform w₁ o c = some (a, w₂) → (next a).Keeps perform view I post w₂
  | .choose next, w => ∀ w₁, view w₁ = view w → I w₁ ∧ ∀ b, (next b).Keeps perform view I post w₁

/-- Every operation of the program changes the world within `frame`. -/
def Frames (perform : Perform Ans W C) (frame : W → W → Prop) : Program Ans α → Prop
  | .pure _ => True
  | .request o next => (∀ w c a w', perform w o c = some (a, w') → frame w w') ∧
      ∀ a, (next a).Frames perform frame
  | .choose next => ∀ b, (next b).Frames perform frame

/-- What holds of every result, whatever the answers. -/
def Returns (post : α → Prop) : Program Ans α → Prop
  | .pure a => post a
  | .request _ next => ∀ a, (next a).Returns post
  | .choose next => ∀ b, (next b).Returns post

variable {V : Type} {perform : Perform Ans W C} {view : W → V} {frame : W → W → Prop}
  {I J : W → Prop} {post post' : α → W → Prop} {p : Program Ans α} {w w' : W}

theorem Keeps.later (h : p.Keeps perform view I post w) (hw : view w' = view w) :
    p.Keeps perform view I post w' := by
  cases p <;> exact fun w₁ h₁ => h w₁ (h₁.trans hw)

theorem Keeps.now {p : Program Ans α} (h : p.Keeps perform view I (fun _ => J) w)
    (hpost : ∀ w, J w → I w) (hw : view w' = view w) : I w' := by
  cases p with
  | pure a => exact hpost w' (h w' hw)
  | request o next => exact (h w' hw).1
  | choose next => exact (h w' hw).1

theorem Keeps.mono (himp : ∀ a w, post a w → post' a w) (hinv : ∀ w, I w → J w)
    (h : p.Keeps perform view I post w) : p.Keeps perform view J post' w := by
  induction p generalizing w with
  | pure a => exact fun w₁ h₁ => himp a w₁ (h w₁ h₁)
  | request o next ih =>
    exact fun w₁ h₁ => ⟨hinv w₁ (h w₁ h₁).1, fun c a w₂ hp => ih a ((h w₁ h₁).2 c a w₂ hp)⟩
  | choose next ih => exact fun w₁ h₁ => ⟨hinv w₁ (h w₁ h₁).1, fun b => ih b ((h w₁ h₁).2 b)⟩

theorem Keeps.bind {f : α → Program Ans β} {post : β → W → Prop}
    (h : p.Keeps perform view I (fun a w => (f a).Keeps perform view I post w) w) :
    (p >>= f).Keeps perform view I post w := by
  induction p generalizing w with
  | pure a => exact h w rfl
  | request o next ih => exact fun w₁ h₁ => ⟨(h w₁ h₁).1, fun c a w₂ hp => ih a ((h w₁ h₁).2 c a w₂ hp)⟩
  | choose next ih => exact fun w₁ h₁ => ⟨(h w₁ h₁).1, fun b => ih b ((h w₁ h₁).2 b)⟩

theorem Keeps.ask {o : Op} {post : Ans o → W → Prop} (hI : ∀ w₁, view w₁ = view w → I w₁)
    (h : ∀ w₁ c a w₂ w₃, view w₁ = view w → perform w₁ o c = some (a, w₂) → view w₃ = view w₂ →
      post a w₃) : (Program.ask o : Program Ans (Ans o)).Keeps perform view I post w :=
  fun w₁ h₁ => ⟨hI w₁ h₁, fun c a w₂ hp w₃ h₃ => h w₁ c a w₂ w₃ h₁ hp h₃⟩

theorem Keeps.and_returns {Q : α → Prop} (h : p.Keeps perform view I post w) (hr : p.Returns Q) :
    p.Keeps perform view I (fun a w => post a w ∧ Q a) w := by
  induction p generalizing w with
  | pure a => exact fun w₁ h₁ => ⟨h w₁ h₁, hr⟩
  | request o next ih =>
    exact fun w₁ h₁ => ⟨(h w₁ h₁).1, fun c a w₂ hp => ih a ((h w₁ h₁).2 c a w₂ hp) (hr a)⟩
  | choose next ih => exact fun w₁ h₁ => ⟨(h w₁ h₁).1, fun b => ih b ((h w₁ h₁).2 b) (hr b)⟩

theorem Returns.mono {Q Q' : α → Prop} (himp : ∀ a, Q a → Q' a) (h : p.Returns Q) : p.Returns Q' := by
  induction p with
  | pure a => exact himp a h
  | request o next ih => exact fun a => ih a (h a)
  | choose next ih => exact fun b => ih b (h b)

theorem Returns.bind {f : α → Program Ans β} {Q : β → Prop}
    (h : p.Returns fun a => (f a).Returns Q) : (p >>= f).Returns Q := by
  induction p with
  | pure a => exact h
  | request o next ih => exact fun a => ih a (h a)
  | choose next ih => exact fun b => ih b (h b)

theorem Returns.of_forall {Q : α → Prop} (h : ∀ a, Q a) : p.Returns Q := by
  induction p with
  | pure a => exact h a
  | request o next ih => exact ih
  | choose next ih => exact ih

theorem Frames.bind {f : α → Program Ans β} (hp : p.Frames perform frame)
    (hf : ∀ a, (f a).Frames perform frame) : (p >>= f).Frames perform frame := by
  induction p with
  | pure a => exact hf a
  | request o next ih => exact ⟨hp.1, fun a => ih a (hp.2 a)⟩
  | choose next ih => exact fun b => ih b (hp b)

theorem Frames.ask {o : Op} (h : ∀ w c a w', perform w o c = some (a, w') → frame w w') :
    (Program.ask o : Program Ans (Ans o)).Frames perform frame :=
  ⟨h, fun _ => trivial⟩

/-- A program that leaves the view alone keeps what the view says. -/
theorem Frames.keeps (hp : p.Frames perform frame)
    (hframe : ∀ w w', I w → frame w w' → view w' = view w)
    (hview : ∀ w w', I w → view w' = view w → I w') (hw : I w) :
    p.Keeps perform view I (fun _ => I) w := by
  induction p generalizing w with
  | pure a => exact fun w₁ h₁ => hview w w₁ hw h₁
  | request o next ih =>
    refine fun w₁ h₁ => ⟨hview w w₁ hw h₁, fun c a w₂ hc => ih a (hp.2 a) ?_⟩
    have hI := hview w w₁ hw h₁
    exact hview w₁ w₂ hI (hframe w₁ w₂ hI (hp.1 w₁ c a w₂ hc))
  | choose next ih => exact fun w₁ h₁ => ⟨hview w w₁ hw h₁, fun b => ih b (hp b) (hview w w₁ hw h₁)⟩

-- ---
-- Two programs at once
-- ---

theorem Frames.beside {o : Op} {next : Ans o → Program Ans Unit}
    {resume : Ans o → Program Ans Unit → Program Ans Unit} {q : Program Ans Unit}
    (ho : ∀ w c a w', perform w o c = some (a, w') → frame w w')
    (hnext : ∀ a, (next a).Frames perform frame)
    (hresume : ∀ a q, q.Frames perform frame → (resume a q).Frames perform frame)
    (hq : q.Frames perform frame) : (beside o next resume q).Frames perform frame := by
  induction q with
  | pure _ => exact ⟨ho, hnext⟩
  | choose next' ih => exact fun b => ih b (hq b)
  | request o' next' ih =>
    rw [Program.beside]
    refine fun b => ?_
    cases b with
    | true => exact ⟨ho, fun a => hresume a _ hq⟩
    | false => exact ⟨hq.1, fun a => ih a (hq.2 a)⟩

theorem Frames.par {p q : Program Ans Unit} (hp : p.Frames perform frame)
    (hq : q.Frames perform frame) : (p.par q).Frames perform frame := by
  induction p generalizing q with
  | pure _ => exact hq
  | choose next ih => exact fun b => ih b (hp b) hq
  | request o next ih => exact hq.beside hp.1 hp.2 (fun a q hq => ih a (hp.2 a) hq)

/-- A program that has ended leaves the other one to run alone. -/
theorem Frames.keeps_done {Q : W → Prop} {q : Program Ans Unit} (hq : q.Frames perform frame)
    (hframe : ∀ w w', I w → frame w w' → view w' = view w) (hpost : ∀ w, Q w → I w)
    (hview : ∀ w w', Q w → view w' = view w → Q w') (hw : Q w) :
    q.Keeps perform view I (fun _ => Q) w :=
  (hq.keeps (fun w w' hQ => hframe w w' (hpost w hQ)) hview hw).mono (fun _ _ => id) hpost

section
variable {Q : W → Prop} {q : Program Ans Unit}
  (hframe : ∀ w w', I w → frame w w' → view w' = view w) (hpost : ∀ w, Q w → I w)
  (hview : ∀ w w', Q w → view w' = view w → Q w')
include hframe hpost hview

theorem Keeps.par_left {p : Program Ans Unit} (hp : p.Keeps perform view I (fun _ => Q) w)
    (hq : q.Frames perform frame) : (p.par q).Keeps perform view I (fun _ => Q) w := by
  induction p generalizing q w with
  | pure _ => exact hq.keeps_done hframe hpost hview (hp w rfl)
  | choose next ih => exact fun w₁ h₁ => ⟨(hp w₁ h₁).1, fun b => ih b ((hp w₁ h₁).2 b) hq⟩
  | request o next ih =>
    show (beside o next _ q).Keeps perform view I (fun _ => Q) w
    induction q generalizing w with
    | pure _ => exact hp
    | choose next' ih' => exact fun w₁ h₁ => ⟨(hp w₁ h₁).1, fun b => ih' b (hp.later h₁) (hq b)⟩
    | request o' next' ih' =>
      rw [beside]
      refine fun w₁ h₁ => ⟨(hp w₁ h₁).1, fun b => ?_⟩
      have hp := hp.later h₁
      cases b with
      | true =>
        exact fun w₂ h₂ => ⟨(hp w₂ h₂).1, fun c a w₃ hc => ih a ((hp w₂ h₂).2 c a w₃ hc) hq⟩
      | false =>
        refine fun w₂ h₂ => ⟨(hp w₂ h₂).1, fun c a w₃ hc => ih' a (hp.later ?_) (hq.2 a)⟩
        exact (hframe w₂ w₃ (hp w₂ h₂).1 (hq.1 w₂ c a w₃ hc)).trans h₂

theorem Keeps.par_right {p : Program Ans Unit} (hp : p.Frames perform frame)
    (hq : q.Keeps perform view I (fun _ => Q) w) :
    (p.par q).Keeps perform view I (fun _ => Q) w := by
  induction p generalizing q w with
  | pure _ => exact hq
  | choose next ih => exact fun w₁ h₁ => ⟨hq.now hpost h₁, fun b => ih b (hp b) (hq.later h₁)⟩
  | request o next ih =>
    show (beside o next _ q).Keeps perform view I (fun _ => Q) w
    induction q generalizing w with
    | pure _ => exact hp.keeps_done hframe hpost hview (hq w rfl)
    | choose next' ih' => exact fun w₁ h₁ => ⟨(hq w₁ h₁).1, fun b => ih' b ((hq w₁ h₁).2 b)⟩
    | request o' next' ih' =>
      rw [beside]
      refine fun w₁ h₁ => ⟨(hq w₁ h₁).1, fun b => ?_⟩
      have hq := hq.later h₁
      cases b with
      | true =>
        refine fun w₂ h₂ => ⟨(hq w₂ h₂).1, fun c a w₃ hc => ih a (hp.2 a) (hq.later ?_)⟩
        exact (hframe w₂ w₃ (hq w₂ h₂).1 (hp.1 w₂ c a w₃ hc)).trans h₂
      | false =>
        exact fun w₂ h₂ => ⟨(hq w₂ h₂).1, fun c a w₃ hc => ih' a ((hq w₂ h₂).2 c a w₃ hc)⟩

end

end Program

-- ---
-- Machines
-- ---

/-- `X` is what a crash leaves open, such as the next process id. -/
structure Machine {Op : Type} (Ans : Op → Type) (W C Cmd X : Type) where
  init : W → Prop
  perform : Program.Perform Ans W C
  program : W → Cmd → Option (Program Ans Unit)
  crash : W → X → W

structure Process {Op : Type} (Ans : Op → Type) (W : Type) where
  world : W
  running : Option (Program Ans Unit)

inductive Label (C Cmd X : Type) where
  | start (cmd : Cmd)
  | answer (c : C)
  | schedule (b : Bool)
  | crash (x : X)
  deriving DecidableEq

variable {Op : Type} {Ans : Op → Type} {W V C Cmd X : Type}

/-- A program that has ended no longer runs. -/
def Program.running : Program Ans Unit → Option (Program Ans Unit)
  | .pure _ => none
  | p => some p

def Machine.step (M : Machine Ans W C Cmd X) (s : Process Ans W) :
    Label C Cmd X → Option (Process Ans W)
  | .start cmd =>
    match s.running, M.program s.world cmd with
    | none, some p => some ⟨s.world, p.running⟩
    | _, _ => none
  | .answer c =>
    match s.running with
    | some (.request o next) =>
      (M.perform s.world o c).map fun r => ⟨r.2, (next r.1).running⟩
    | _ => none
  | .schedule b =>
    match s.running with
    | some (.choose next) => some ⟨s.world, (next b).running⟩
    | _ => none
  | .crash x => some ⟨M.crash s.world x, none⟩

def Machine.system (M : Machine Ans W C Cmd X) : System (Process Ans W) (Label C Cmd X) where
  init s := M.init s.world ∧ s.running = none
  step := M.step

/-- What a machine keeps: `Idle` whenever no program runs, and the guarantee
of the one that does. -/
def Machine.Kept (M : Machine Ans W C Cmd X) (view : W → V) (I Idle : W → Prop)
    (s : Process Ans W) : Prop :=
  match s.running with
  | none => Idle s.world
  | some p => p.Keeps M.perform view I (fun _ => Idle) s.world

theorem Machine.kept_of_keeps {M : Machine Ans W C Cmd X} {view : W → V} {I Idle : W → Prop}
    {p : Program Ans Unit} (h : p.Keeps M.perform view I (fun _ => Idle) w) :
    M.Kept view I Idle ⟨w, p.running⟩ := by
  cases p with
  | pure _ => exact h w rfl
  | request o next => exact h
  | choose next => exact h

/-- Programs that keep `I` from every idle world keep it in every run, crashes
included. -/
theorem Machine.reachable_keeps (M : Machine Ans W C Cmd X) (view : W → V) {I Idle : W → Prop}
    (hinit : ∀ w, M.init w → Idle w) (hidle : ∀ w, Idle w → I w)
    (hcrash : ∀ w x, I w → Idle (M.crash w x))
    (hprogram : ∀ w cmd p, Idle w → M.program w cmd = some p →
      p.Keeps M.perform view I (fun _ => Idle) w)
    (h : M.system.Reachable s) : I s.world := by
  have hnow (s : Process Ans W) (hs : M.Kept view I Idle s) : I s.world := by
    obtain ⟨w, _ | p⟩ := s
    · exact hidle w hs
    · exact Program.Keeps.now hs hidle rfl
  refine hnow s (h.invariant ?_ ?_)
  · rintro ⟨w, running⟩ ⟨hw, rfl⟩
    exact hinit w hw
  · rintro ⟨w, running⟩ label s' hs hstep
    cases label with
    | start cmd =>
      simp only [Machine.system, Machine.step] at hstep
      split at hstep
      · rename_i p hp
        cases hstep
        exact kept_of_keeps (hprogram w cmd p hs hp)
      · cases hstep
    | answer c =>
      simp only [Machine.system, Machine.step] at hstep
      split at hstep
      · rename_i o next
        obtain ⟨⟨a, w'⟩, hp, rfl⟩ := Option.map_eq_some_iff.mp hstep
        exact kept_of_keeps ((hs w rfl).2 c a w' hp)
      · cases hstep
    | schedule b =>
      simp only [Machine.system, Machine.step] at hstep
      split at hstep
      · rename_i next
        cases hstep
        exact kept_of_keeps ((hs w rfl).2 b)
      · cases hstep
    | crash x =>
      cases hstep
      exact hcrash w x (hnow _ hs)

end OpenClaw.AtomicProgram
