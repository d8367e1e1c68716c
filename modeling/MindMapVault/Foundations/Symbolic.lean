import Mathlib.Order.Notation

/-!
# Messages as terms, and what can be derived from them

Messages are terms over names that their owners keep to themselves. One who has seen some
terms can take pairs apart, open what he has the key of, and build new terms; a scheme of key
pairs may be broken, so that its public halves are enough. Two arguments bound what he derives.
A policy says which names may get out and what is locked under the keys that do not: if every
term seen is open under it, so is every term derived. And the locked parts and public keys of a
derived term are traced to the terms seen, where he could not have made them himself.
-/

universe u v

namespace Symbolic

/-- The two kinds of key pairs: one agrees on a secret with another pair, one receives a secret
that is drawn for it. -/
inductive Scheme
  | agreement
  | encapsulation
  deriving DecidableEq

/-- A message. The private half of a key pair is itself a term. -/
inductive Term (Name : Type u) (OneWay : Type v)
  | text (value : String)
  | secret (name : Name)
  | pair (first second : Term Name OneWay)
  | apply (function : OneWay) (argument : Term Name OneWay)
  | locked (key : Term Name OneWay) (nonce : Nat) (plain : Term Name OneWay)
  | publicKey (scheme : Scheme) (priv : Term Name OneWay)
  | agreed (own other : Term Name OneWay)
  | capsule (priv seed : Term Name OneWay)
  | encapsulated (priv seed : Term Name OneWay)
  deriving DecidableEq

variable {Name : Type u} {OneWay : Type v}

open Term

/-- What can be derived from the terms seen. Both owners of an agreement compute it, each from
the own private half and the public half of the other. -/
inductive Derives (breaks : Scheme → Prop) (seen : Term Name OneWay → Prop) :
    Term Name OneWay → Prop
  | seen {term} : seen term → Derives breaks seen term
  | text (value) : Derives breaks seen (.text value)
  | pair {first second} :
      Derives breaks seen first → Derives breaks seen second →
        Derives breaks seen (.pair first second)
  | first {first second} : Derives breaks seen (.pair first second) → Derives breaks seen first
  | second {first second} : Derives breaks seen (.pair first second) → Derives breaks seen second
  | apply (function) {argument} :
      Derives breaks seen argument → Derives breaks seen (.apply function argument)
  | lock {key plain} (nonce) :
      Derives breaks seen key → Derives breaks seen plain →
        Derives breaks seen (.locked key nonce plain)
  | unlock {key nonce plain} :
      Derives breaks seen (.locked key nonce plain) → Derives breaks seen key →
        Derives breaks seen plain
  | publish (scheme) {priv} :
      Derives breaks seen priv → Derives breaks seen (.publicKey scheme priv)
  | agreeFirst {own other} :
      Derives breaks seen own → Derives breaks seen (.publicKey .agreement other) →
        Derives breaks seen (.agreed own other)
  | agreeSecond {own other} :
      Derives breaks seen (.publicKey .agreement own) → Derives breaks seen other →
        Derives breaks seen (.agreed own other)
  | agreeBroken {own other} :
      breaks .agreement → Derives breaks seen (.publicKey .agreement own) →
        Derives breaks seen (.publicKey .agreement other) → Derives breaks seen (.agreed own other)
  | enclose {priv seed} :
      Derives breaks seen (.publicKey .encapsulation priv) → Derives breaks seen seed →
        Derives breaks seen (.capsule priv seed)
  | encapsulate {priv seed} :
      Derives breaks seen (.publicKey .encapsulation priv) → Derives breaks seen seed →
        Derives breaks seen (.encapsulated priv seed)
  | decapsulate {priv seed} :
      Derives breaks seen (.capsule priv seed) → Derives breaks seen priv →
        Derives breaks seen (.encapsulated priv seed)
  | decapsulateBroken {priv seed} :
      breaks .encapsulation → Derives breaks seen (.capsule priv seed) →
        Derives breaks seen (.encapsulated priv seed)

section Derivations

variable {breaks : Scheme → Prop} {seen seen' : Term Name OneWay → Prop}
  {term key plain : Term Name OneWay}

/-- More is derived from more. -/
theorem Derives.mono (more : ∀ term, seen term → seen' term) (derives : Derives breaks seen term) :
    Derives breaks seen' term := by
  induction derives with
  | seen isSeen => exact .seen (more _ isSeen)
  | text value => exact .text value
  | pair _ _ first second => exact .pair first second
  | first _ both => exact .first both
  | second _ both => exact .second both
  | apply function _ argument => exact .apply function argument
  | lock nonce _ _ key plain => exact .lock nonce key plain
  | unlock _ _ box key => exact .unlock box key
  | publish scheme _ priv => exact .publish scheme priv
  | agreeFirst _ _ own other => exact .agreeFirst own other
  | agreeSecond _ _ own other => exact .agreeSecond own other
  | agreeBroken broken _ _ own other => exact .agreeBroken broken own other
  | enclose _ _ priv seed => exact .enclose priv seed
  | encapsulate _ _ priv seed => exact .encapsulate priv seed
  | decapsulate _ _ capsule priv => exact .decapsulate capsule priv
  | decapsulateBroken broken _ capsule => exact .decapsulateBroken broken capsule

end Derivations

/-! ### Policies -/

/-- Which names may get out, the functions whose values may, and what is locked under a key
that does not. -/
structure Policy (Name : Type u) (OneWay : Type v) where
  exposed : Name → Prop
  released : OneWay → Prop
  uses : Term Name OneWay → Term Name OneWay → Prop

/-- A term that may get out. -/
def Policy.Open (policy : Policy Name OneWay) (breaks : Scheme → Prop) :
    Term Name OneWay → Prop
  | .text _ | .publicKey _ _ | .capsule _ _ => True
  | .secret name => policy.exposed name
  | .pair first second => policy.Open breaks first ∧ policy.Open breaks second
  | .apply function argument => policy.released function ∨ policy.Open breaks argument
  | .locked key _ plain =>
      (policy.Open breaks key ∧ policy.Open breaks plain) ∨
        (¬policy.Open breaks key ∧ policy.uses key plain)
  | .agreed own other =>
      breaks .agreement ∨ policy.Open breaks own ∨ policy.Open breaks other
  | .encapsulated priv seed =>
      breaks .encapsulation ∨ policy.Open breaks priv ∨ policy.Open breaks seed

section Policies

variable {policy : Policy Name OneWay} {breaks : Scheme → Prop}
  {seen : Term Name OneWay → Prop} {term key plain : Term Name OneWay} {nonce : Nat}

/-- From open terms only open terms are derived. -/
theorem Policy.open_of_derives (allOpen : ∀ term, seen term → policy.Open breaks term)
    (derives : Derives breaks seen term) : policy.Open breaks term := by
  induction derives with
  | seen isSeen => exact allOpen _ isSeen
  | text | publish | enclose => trivial
  | pair _ _ first second => exact ⟨first, second⟩
  | first _ both => exact both.1
  | second _ both => exact both.2
  | apply _ _ argument => exact .inr argument
  | lock _ _ _ key plain => exact .inl ⟨key, plain⟩
  | unlock _ _ box key =>
      rcases box with ⟨_, plain⟩ | ⟨closed, _⟩
      · exact plain
      · exact absurd key closed
  | agreeFirst _ _ own _ => exact .inr (.inl own)
  | agreeSecond _ _ _ other => exact .inr (.inr other)
  | agreeBroken broken | decapsulateBroken broken => exact .inl broken
  | encapsulate _ _ _ seed => exact .inr (.inr seed)
  | decapsulate _ _ _ priv => exact .inr (.inl priv)

/-- What is locked under a key that stays in is what the policy says. -/
theorem Policy.uses_of_open (isOpen : policy.Open breaks (.locked key nonce plain))
    (closed : ¬policy.Open breaks key) : policy.uses key plain :=
  isOpen.elim (fun both => absurd both.1 closed) fun other => other.2

/-- A locked term is open if what it holds is open and may stand under its key. -/
theorem Policy.open_locked (uses : policy.uses key plain)
    (exposed : policy.Open breaks key → policy.Open breaks plain) :
    policy.Open breaks (.locked key nonce plain) := by
  by_cases isOpen : policy.Open breaks key
  · exact .inl ⟨isOpen, exposed isOpen⟩
  · exact .inr ⟨isOpen, uses⟩

end Policies

/-! ### Origins -/

/-- Every locked part and every public key that can be reached in the term has an origin. -/
def Traced (locks : Term Name OneWay → Prop) (keyPairs : Scheme → Term Name OneWay → Prop) :
    Term Name OneWay → Prop
  | .pair first second => Traced locks keyPairs first ∧ Traced locks keyPairs second
  | .locked key nonce plain => locks (.locked key nonce plain) ∧ Traced locks keyPairs plain
  | .publicKey scheme priv => keyPairs scheme priv
  | .text _ | .secret _ | .apply _ _ | .agreed _ _ | .capsule _ _ | .encapsulated _ _ => True

section Origins

variable {breaks : Scheme → Prop} {seen : Term Name OneWay → Prop} {term : Term Name OneWay}
  {locks locks' : Term Name OneWay → Prop} {keyPairs keyPairs' : Scheme → Term Name OneWay → Prop}

theorem Traced.mono (moreLocks : ∀ term, locks term → locks' term)
    (morePairs : ∀ scheme priv, keyPairs scheme priv → keyPairs' scheme priv)
    (traced : Traced locks keyPairs term) : Traced locks' keyPairs' term := by
  induction term with
  | pair first second one two => exact ⟨one traced.1, two traced.2⟩
  | locked key nonce plain _ inner => exact ⟨moreLocks _ traced.1, inner traced.2⟩
  | publicKey scheme priv _ => exact morePairs scheme priv traced
  | text | secret | apply | agreed | capsule | encapsulated => trivial

/-- Origins pass to what is derived, where one who derives a key may lock under it and one who
derives a private half may publish the other. -/
theorem Derives.traced (allTraced : ∀ term, seen term → Traced locks keyPairs term)
    (ownLocks : ∀ key nonce plain, Derives breaks seen key → locks (.locked key nonce plain))
    (ownPairs : ∀ scheme priv, Derives breaks seen priv → keyPairs scheme priv)
    (derives : Derives breaks seen term) : Traced locks keyPairs term := by
  induction derives with
  | seen isSeen => exact allTraced _ isSeen
  | pair _ _ first second => exact ⟨first, second⟩
  | first _ both => exact both.1
  | second _ both => exact both.2
  | lock nonce key _ _ plain => exact ⟨ownLocks _ nonce _ key, plain⟩
  | unlock _ _ box _ => exact box.2
  | publish scheme priv _ => exact ownPairs scheme _ priv
  | text | apply | agreeFirst | agreeSecond | agreeBroken | enclose | encapsulate
  | decapsulate | decapsulateBroken => trivial

end Origins

end Symbolic
