import Mathlib.Data.Set.Prod
import Mathlib.Logic.Relation
import Mathlib.Tactic

/-!
# Grants that never conflict between owners

A lock service without queues or identities: a set of grants, each with its
owner, from which grants may disappear at any time and to which an owner may
add a batch of grants that none of the other owners' grants conflicts with.
Two grants of one owner are never compared.
-/

namespace ConflictFreeGrants

universe u v

variable {Owner : Type u} {Grant : Type v}

def Exclusive
    (conflict : Grant → Grant → Prop) (held : Set (Owner × Grant)) : Prop :=
  ∀ first ∈ held, ∀ second ∈ held,
    first.1 ≠ second.1 → ¬ conflict first.2 second.2

/-- The grants of all owners but `owner` leave room for `grant`. -/
def Admits
    (conflict : Grant → Grant → Prop) (held : Set (Owner × Grant))
    (owner : Owner) (grant : Grant) : Prop :=
  ∀ other ∈ held, other.1 ≠ owner → ¬ conflict grant other.2

/-- The grants `wanted`, all owned by `owner`. -/
def ownedBy (owner : Owner) (wanted : Set Grant) : Set (Owner × Grant) :=
  ({owner} : Set Owner) ×ˢ wanted

inductive Step (conflict : Grant → Grant → Prop) :
    Set (Owner × Grant) → Set (Owner × Grant) → Prop
  | release {held kept : Set (Owner × Grant)} :
      kept ⊆ held → Step conflict held kept
  | acquire {held : Set (Owner × Grant)}
      (owner : Owner) (wanted : Set Grant) :
      (∀ grant ∈ wanted, Admits conflict held owner grant) →
      Step conflict held (held ∪ ownedBy owner wanted)

abbrev Steps (conflict : Grant → Grant → Prop) :
    Set (Owner × Grant) → Set (Owner × Grant) → Prop :=
  Relation.ReflTransGen (Step conflict)

variable {conflict : Grant → Grant → Prop} {held kept : Set (Owner × Grant)}

@[simp] theorem mem_ownedBy
    {owner : Owner} {wanted : Set Grant} {entry : Owner × Grant} :
    entry ∈ ownedBy owner wanted ↔ entry.1 = owner ∧ entry.2 ∈ wanted := by
  simp [ownedBy, Set.mem_prod]

@[simp] theorem exclusive_empty :
    Exclusive conflict (∅ : Set (Owner × Grant)) := by
  intro first hfirst
  exact absurd hfirst (Set.notMem_empty first)

theorem Exclusive.mono
    (hexclusive : Exclusive conflict held) (hsub : kept ⊆ held) :
    Exclusive conflict kept := by
  intro first hfirst second hsecond
  exact hexclusive first (hsub hfirst) second (hsub hsecond)

theorem Exclusive.acquire
    [Std.Symm conflict]
    (hexclusive : Exclusive conflict held)
    {owner : Owner} {wanted : Set Grant}
    (hadmits : ∀ grant ∈ wanted, Admits conflict held owner grant) :
    Exclusive conflict (held ∪ ownedBy owner wanted) := by
  intro first hfirst second hsecond hne
  rcases hfirst with hfirst | hfirst <;>
    rcases hsecond with hsecond | hsecond
  · exact hexclusive first hfirst second hsecond hne
  · obtain ⟨howner, hwanted⟩ := mem_ownedBy.mp hsecond
    intro hconflict
    exact hadmits second.2 hwanted first hfirst (howner ▸ hne)
      (Std.Symm.symm _ _ hconflict)
  · obtain ⟨howner, hwanted⟩ := mem_ownedBy.mp hfirst
    exact hadmits first.2 hwanted second hsecond (howner ▸ hne.symm)
  · obtain ⟨howner, _⟩ := mem_ownedBy.mp hfirst
    obtain ⟨howner', _⟩ := mem_ownedBy.mp hsecond
    exact absurd (howner.trans howner'.symm) hne

theorem Step.exclusive
    [Std.Symm conflict]
    (hstep : Step conflict held kept)
    (hexclusive : Exclusive conflict held) :
    Exclusive conflict kept := by
  cases hstep with
  | release hsub => exact hexclusive.mono hsub
  | acquire owner wanted hadmits => exact hexclusive.acquire hadmits

theorem Steps.exclusive
    [Std.Symm conflict]
    (hsteps : Steps conflict held kept)
    (hexclusive : Exclusive conflict held) :
    Exclusive conflict kept := by
  induction hsteps with
  | refl => exact hexclusive
  | tail _ hstep ih => exact hstep.exclusive ih

theorem Steps.release (hsub : kept ⊆ held) : Steps conflict held kept :=
  .single (.release hsub)

theorem Steps.acquire
    (owner : Owner) (wanted : Set Grant)
    (hadmits : ∀ grant ∈ wanted, Admits conflict held owner grant)
    (hsub : kept ⊆ held ∪ ownedBy owner wanted) :
    Steps conflict held kept :=
  .tail (.single (.acquire owner wanted hadmits)) (.release hsub)

end ConflictFreeGrants
