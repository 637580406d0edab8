import ByteMachine.Proofs.Histories
import ByteMachine.Proofs.Machine.Cycle
import ByteMachine.Proofs.Machine.Footprint
import ByteMachine.Proofs.Random.Bytes

/-!
# One stream of random bytes for each computer

The generator of a computer is made from its seed once, and from then on only the operation
that draws a byte moves it. So the bytes that a computer draws are those of one stream, in
order, whatever else it does in between: two computers with the same seed draw the same
bytes, even if they have nothing else in common.
-/

namespace ByteMachine

open ByteMachine.Random (Generator)

/-- Whether a random byte is drawn. -/
def Deed.isDraw : Deed → Bool
  | .execute _ .random => true
  | _ => false

namespace Machine

variable {m : Machine}

/-- A step that draws a byte leaves it in the accumulator, and the generator behind it. -/
theorem drawn_of_step (hdraw : m.deed.isDraw = true) {r : Reply Machine (Except Fault Unit)}
    (hr : m.step = some r) :
    r.next.registers.ra = m.generator.nextByte.1 ∧
      r.next.generator = m.generator.nextByte.2 := by
  obtain ⟨address, hdeed⟩ : ∃ address, m.deed = .execute address .random := by
    unfold Deed.isDraw at hdraw
    split at hdraw
    · rename_i address hdeed
      exact ⟨address, hdeed⟩
    · cases hdraw
  obtain ⟨hrunning, hcode⟩ := load_of_deed hdeed
  rw [step, if_pos hrunning, cycle_eq_complete hcode] at hr
  cases hr
  exact ⟨rfl, rfl⟩

/-- A step that draws no byte leaves the generator alone. -/
theorem generator_of_step (hdraw : m.deed.isDraw = false) {r : Reply Machine (Except Fault Unit)}
    (hr : m.step = some r) : r.next.generator = m.generator := by
  rcases step_cases hr with ⟨-, rfl⟩ | ⟨hrunning, -, hnext⟩
  · rfl
  · have hcycle : (cycle m).machine.generator = m.generator := by
      rcases m.cycle_cases with ⟨-, fault, hcycle⟩ | ⟨o, hcode, hcycle⟩
      · rw [hcycle]
      · have hother : o ≠ .random := by
          intro ho
          rw [deed_of_load hrunning hcode, ho] at hdraw
          cases hdraw
        rw [hcycle]
        exact (o.uses_complete.confines m).generator hother
    rcases hnext with ⟨-, hnext⟩ | ⟨fault, -, hnext⟩
    · rw [hnext]
      exact hcycle
    · rw [hnext]
      exact hcycle

end Machine

namespace Computer

variable {c : Computer}

/-- The bytes that commands have a computer draw, as the accumulator shows them. -/
def draws (c : Computer) : List Command → List UInt8
  | [] => []
  | command :: commands =>
    match c.perform command with
    | some r =>
      if (c.deed command).isDraw then
        r.next.machine.registers.ra :: r.next.draws commands
      else r.next.draws commands
    | none => []

/-- A command that draws a byte leaves it in the accumulator, and the generator behind it. -/
theorem drawn_of_perform {command : Command} (hdraw : (c.deed command).isDraw = true)
    {r : Reply Computer Answer} (hr : c.perform command = some r) :
    r.next.machine.registers.ra = c.machine.generator.nextByte.1 ∧
      r.next.machine.generator = c.machine.generator.nextByte.2 := by
  cases performs_of_perform hr with
  | stepped hstep => exact Machine.drawn_of_step hdraw hstep
  | passed hs hidle =>
    rw [deed_update hs, Machine.deed_of_not_running hidle] at hdraw
    cases hdraw
  | updated hs hrunning hstep =>
    rw [deed_update hs] at hdraw
    exact Machine.drawn_of_step hdraw hstep
  | assembled | started | stopped | suspended | woken | delivered => cases hdraw

/-- A command that draws no byte leaves the generator alone. -/
theorem generator_of_perform {command : Command} (hdraw : (c.deed command).isDraw = false)
    {r : Reply Computer Answer} (hr : c.perform command = some r) :
    r.next.machine.generator = c.machine.generator := by
  cases performs_of_perform hr with
  | assembled source =>
    unfold assemble Reply.mapAnswer
    split <;> rfl
  | stepped hstep => exact Machine.generator_of_step hdraw hstep
  | updated hs hrunning hstep =>
    rw [deed_update hs] at hdraw
    exact Machine.generator_of_step hdraw hstep
  | delivered ticket text =>
    unfold deliver Reply.mapAnswer
    split
    · rfl
    · split <;> rfl
  | started | stopped | suspended | woken | passed => rfl

/-- The bytes that a computer draws are the next ones of its generator, in order. -/
theorem toNat_of_draws {commands : List Command} {k : Nat} {v : UInt8}
    (hv : (c.draws commands)[k]? = some v) : v.toNat = (c.machine.generator.after k).number := by
  induction commands generalizing c k with
  | nil => cases hv
  | cons command commands ih =>
    unfold draws at hv
    split at hv
    · rename_i r hr
      split at hv
      · rename_i hdraw
        obtain ⟨haccumulator, hgenerator⟩ := drawn_of_perform hdraw hr
        cases k with
        | zero =>
          cases hv
          rw [haccumulator]
          exact Generator.toNat_nextByte _
        | succ k =>
          have hrest := ih hv
          rw [hgenerator] at hrest
          exact hrest
      · rename_i hdraw
        have hrest := ih hv
        rw [generator_of_perform (Bool.eq_false_iff.mpr hdraw) hr] at hrest
        exact hrest
    · cases hv

/-- A new computer begins its stream at the start, and the key matters only where no seed is
set. -/
theorem generator_of_ofSettings {settings : Settings} {key : Random.Key}
    (h : ofSettings settings key = .ok c) :
    c.machine.generator = .start settings.seed key := by
  unfold ofSettings at h
  split at h
  · cases h
    rfl
  · cases h

/-- Two computers that are set to the same seed draw the same bytes, the first one the same as the
first one, and so on, whatever they are otherwise set to, whatever key each was given and whatever
commands they have carried out. All these bytes are numbers from 1 to 255, and in no computer does
the generator move unless a byte is drawn. -/
theorem draws_determined_by_seed {settings settings' : Settings} {key key' : Random.Key}
    {seed : UInt64} (hseed : settings.seed = some seed) (hseed' : settings'.seed = some seed)
    {c d : Computer} (hc : ofSettings settings key = .ok c)
    (hd : ofSettings settings' key' = .ok d) (commands commands' : List Command) :
    (∀ (k : Nat) v w, (c.draws commands)[k]? = some v → (d.draws commands')[k]? = some w →
        v = w) ∧
      (∀ (k : Nat) v, (c.draws commands)[k]? = some v →
        v.toNat = ((Generator.ofSeed seed).after k).number ∧ 1 ≤ v.toNat ∧ v.toNat ≤ 255) ∧
      ∀ (e : Computer) command r, e.perform command = some r → (e.deed command).isDraw = false →
        r.next.machine.generator = e.machine.generator := by
  have hfirst := generator_of_ofSettings hc
  have hsecond := generator_of_ofSettings hd
  rw [hseed, Generator.start_some] at hfirst
  rw [hseed', Generator.start_some] at hsecond
  refine ⟨?_, ?_, ?_⟩
  · intro k v w hv hw
    have hdrawn := toNat_of_draws hv
    have hdrawn' := toNat_of_draws hw
    rw [hfirst] at hdrawn
    rw [hsecond] at hdrawn'
    exact UInt8.toNat_inj.mp (hdrawn.trans hdrawn'.symm)
  · intro k v hv
    have hdrawn := toNat_of_draws hv
    rw [hfirst] at hdrawn
    rw [hdrawn]
    exact ⟨rfl, Generator.number_bounds _⟩
  · intro e command r hr hdraw
    exact generator_of_perform hdraw hr

/-- A new computer of this size whose seed is set. -/
def sevens (size : Nat) (pos : 0 < size) (le : size ≤ maxMemorySize) : Computer where
  machine := {
    memory := .zeros size pos le
    scheduler := { sleepUnit := milliseconds 1000 }
    generator := .ofSeed 7 }
  settings := { memorySize := size, seed := some 7 }

/-- A program that draws a byte at once. -/
def drawing : List Command := [.assemble "RAND", .run, .step]

/-- A program that draws its first byte in its second run, after a sleep. -/
def drawingLater : List Command :=
  [.assemble "SLEEP 02\nRAND", .run, .step, .stop, .run, .update 0, .sleep (some 3), .update 3]

/-- Both draw the same byte, in memories of different sizes. -/
theorem drawingLater_draws_the_same : ∃ c d, ∃ v w : UInt8,
    ofSettings { memorySize := 1, seed := some 7 } 0 = .ok c ∧
    ofSettings { memorySize := 8, seed := some 7 } (.replicate 8 1) = .ok d ∧
    (c.draws drawing)[0]? = some v ∧ (d.draws drawingLater)[0]? = some w ∧ v = w ∧
    1 ≤ v.toNat := by
  have hdrawn : ((sevens 1 (by decide) (by decide)).draws drawing)[0]? = some 107 := by
    decide +kernel
  have hdrawn' : ((sevens 8 (by decide) (by decide)).draws drawingLater)[0]? = some 107 := by
    decide +kernel
  obtain ⟨hsame, hbounds, -⟩ := draws_determined_by_seed
    (rfl : ({ memorySize := 1, seed := some 7 } : Settings).seed = some 7)
    (rfl : ({ memorySize := 8, seed := some 7 } : Settings).seed = some 7)
    (rfl : ofSettings _ 0 = .ok (sevens 1 (by decide) (by decide)))
    (rfl : ofSettings _ (.replicate 8 1) = .ok (sevens 8 (by decide) (by decide)))
    drawing drawingLater
  have hbyte := (hbounds 0 107 hdrawn).2.1
  exact ⟨_, _, 107, 107, rfl, rfl, hdrawn, hdrawn', hsame 0 107 107 hdrawn hdrawn', hbyte⟩

end Computer

end ByteMachine
