import TraceSampling.Sampler.Basic

/-!
# Samplers by target

A registry hands out samplers under target names. Whoever holds the handle of a sampler can go on
using it after its target is gone; by then the sampler has been shut down.
-/

namespace TraceSampling

/-- The place of a sampler in its registry, for good. -/
abbrev Handle := Nat

/-- `pool` holds every sampler that was created, `targets` the handles of those registered. -/
structure Registry where
  pool : List Sampler := []
  targets : Table Handle := []

namespace Registry

def sampler? (r : Registry) (h : Handle) : Option Sampler := r.pool[h]?

/-- The handle registered for a target. -/
def get? (r : Registry) (target : String) : Option Handle := Table.get? r.targets target

def set (r : Registry) (h : Handle) (s : Sampler) : Registry := { r with pool := r.pool.set h s }

def create (r : Registry) (target : String) (o : SamplerOptions) (now : Nat) :
    Registry × Except SamplerError Handle :=
  match r.get? target with
  | some _ => (r, .error (.targetExists target))
  | none =>
    ({ pool := r.pool ++ [Sampler.make o now], targets := r.targets.put target r.pool.length },
      .ok r.pool.length)

def update (r : Registry) (target : String) (settings : Settings) (now : Nat) :
    Registry × Except SamplerError Unit :=
  match r.get? target with
  | none => (r, .error (.targetNotFound target))
  | some h =>
    match r.sampler? h with
    | none => (r, .error (.targetNotFound target))
    | some s => (r.set h (s.update settings now), .ok ())

/-- Shuts down the sampler of a handle. -/
def shutDownHandle (r : Registry) (h : Handle) (now : Nat) : Registry × Except SamplerError Unit :=
  match r.sampler? h with
  | none => (r, .ok ())
  | some s =>
    let (s, outcome) := s.shutDown now
    (r.set h s, outcome)

/-- Takes a target out and shuts its sampler down. -/
def destroy (r : Registry) (target : String) (now : Nat) : Registry × Except SamplerError Unit :=
  match r.get? target with
  | none => (r, .error (.targetNotFound target))
  | some h => { r with targets := r.targets.filter (·.1 ≠ target) }.shutDownHandle h now

/-- The first error of two. -/
def firstError (a b : Except SamplerError Unit) : Except SamplerError Unit :=
  match a with
  | .error e => .error e
  | .ok _ => b

/-- Shuts down samplers one after the other, whether or not one of them fails. -/
def shutDownAll (now : Nat) : List Handle → Registry → Registry × Except SamplerError Unit
  | [], r => (r, .ok ())
  | h :: hs, r =>
    let (r, first) := r.shutDownHandle h now
    let (r, others) := shutDownAll now hs r
    (r, firstError first others)

/-- Takes every target out and shuts all of their samplers down. -/
def shutDown (r : Registry) (now : Nat) : Registry × Except SamplerError Unit :=
  shutDownAll now (r.targets.map (·.2)) { r with targets := [] }

end Registry

end TraceSampling
