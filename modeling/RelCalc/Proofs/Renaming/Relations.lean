/-
  `Proofs.Renaming.Relations`: predicates of relations do not see names or order.

  The predicates are decided on tables, whose rows and columns follow the order of the
  reference sets.  Read as statements about elements and pairs they mention no order,
  and an injective renaming carries each such statement over.  The domain and the range
  of a relation are cut out of the ground set, so they keep its order.
-/
import RelCalc.Proofs.Relation.Predicates
import RelCalc.Proofs.Renaming.Sets

set_option autoImplicit false

namespace RelCalc.FinSet

variable {α β : Type} {order : Arrangement} {f : α → β} {r : FinSet (α × α)} {q : FinSet (β × β)}

/-- A relation holds the images of the pairs of another, in an order that is allowed. -/
abbrev RenamedPairs (order : Arrangement) (f : α → β) (r : FinSet (α × α)) (q : FinSet (β × β)) :
    Prop :=
  r.Renamed order (Prod.map f f) q

theorem RenamedPairs.mem_iff (h : r.RenamedPairs order f q) (inj : Function.Injective f) {a b : α} :
    (f a, f b) ∈ q ↔ (a, b) ∈ r :=
  Renamed.mem_iff h (inj.prodMap inj) (a := (a, b))

end RelCalc.FinSet

namespace RelCalc.Relation

open FinSet

/-! ## Predicates over a ground set -/

section Ground

variable {α β : Type} [DecidableEq α] [DecidableEq β] {order : Arrangement} {f : α → β}
  {ground : FinSet α} {ground' : FinSet β} {r : FinSet (α × α)} {q : FinSet (β × β)}

theorem reflexive_renamed (inj : Function.Injective f) (hground : ground.Renamed order f ground')
    (h : r.RenamedPairs order f q) : reflexive ground' q = reflexive ground r := by
  rw [Bool.eq_iff_iff, reflexive_iff, reflexive_iff]
  simp only [hground.forall_mem_iff, h.mem_iff inj]

theorem symmetric_renamed (inj : Function.Injective f) (hground : ground.Renamed order f ground')
    (h : r.RenamedPairs order f q) : symmetric ground' q = symmetric ground r := by
  rw [Bool.eq_iff_iff, symmetric_iff, symmetric_iff]
  simp only [hground.forall_mem_iff, h.mem_iff inj]

theorem antisymmetric_renamed (inj : Function.Injective f)
    (hground : ground.Renamed order f ground') (h : r.RenamedPairs order f q) :
    antisymmetric ground' q = antisymmetric ground r := by
  rw [Bool.eq_iff_iff, antisymmetric_iff, antisymmetric_iff]
  simp only [hground.forall_mem_iff, h.mem_iff inj, inj.eq_iff]

theorem transitive_renamed (inj : Function.Injective f) (hground : ground.Renamed order f ground')
    (h : r.RenamedPairs order f q) : transitive ground' q = transitive ground r := by
  rw [Bool.eq_iff_iff, transitive_iff, transitive_iff]
  simp only [hground.forall_mem_iff, h.mem_iff inj]

theorem isFunction_renamed (inj : Function.Injective f) (hground : ground.Renamed order f ground')
    (h : r.RenamedPairs order f q) : isFunction ground' q = isFunction ground r := by
  rw [Bool.eq_iff_iff, isFunction_iff, isFunction_iff]
  simp only [hground.forall_mem_iff, h.mem_iff inj, inj.eq_iff]

end Ground

/-! ## Predicates between two sets -/

section Between

variable {α β : Type} [DecidableEq α] [DecidableEq β] {order : Arrangement} {f : α → β}
  {source target : FinSet α} {source' target' : FinSet β} {r : FinSet (α × α)} {q : FinSet (β × β)}

theorem injective_renamed (inj : Function.Injective f) (h : r.RenamedPairs order f q)
    (hsource : source.Renamed order f source') (htarget : target.Renamed order f target') :
    injective q source' target' = injective r source target := by
  rw [Bool.eq_iff_iff, injective_iff, injective_iff]
  simp only [hsource.forall_mem_iff, htarget.forall_mem_iff, h.mem_iff inj, inj.eq_iff]

theorem surjective_renamed (inj : Function.Injective f) (h : r.RenamedPairs order f q)
    (hsource : source.Renamed order f source') (htarget : target.Renamed order f target') :
    surjective q source' target' = surjective r source target := by
  rw [Bool.eq_iff_iff, surjective_iff, surjective_iff]
  simp only [hsource.forall_mem_iff, htarget.forall_mem_iff, hsource.exists_mem_iff, h.mem_iff inj,
    inj.eq_iff]

theorem bijective_renamed (inj : Function.Injective f) (h : r.RenamedPairs order f q)
    (hsource : source.Renamed order f source') (htarget : target.Renamed order f target') :
    bijective q source' target' = bijective r source target := by
  rw [bijective, bijective, injective_renamed inj h hsource htarget,
    surjective_renamed inj h hsource htarget]

end Between

/-! ## Domain and range -/

section Parts

variable {order : Arrangement} {f : Element → Element} {ground ground' : FinSet Element}
  {r q : Relation}

/-- An element comes first in a pair of the image exactly when it is the image of one that does. -/
theorem mem_map_fst_renamed (inj : Function.Injective f) (h : r.RenamedPairs order f q)
    (a : Element) : f a ∈ q.toList.map Prod.fst ↔ a ∈ r.toList.map Prod.fst := by
  have image : (∃ pair ∈ q, pair.1 = f a) ↔ ∃ pair ∈ r, (Prod.map f f pair).1 = f a :=
    h.exists_mem_iff (P := fun pair => pair.1 = f a)
  rw [List.mem_map, List.mem_map]
  simpa only [Prod.map_fst, inj.eq_iff, mem_def] using image

/-- An element comes second in a pair of the image exactly when it is the image of one that does. -/
theorem mem_map_snd_renamed (inj : Function.Injective f) (h : r.RenamedPairs order f q)
    (b : Element) : f b ∈ q.toList.map Prod.snd ↔ b ∈ r.toList.map Prod.snd := by
  have image : (∃ pair ∈ q, pair.2 = f b) ↔ ∃ pair ∈ r, (Prod.map f f pair).2 = f b :=
    h.exists_mem_iff (P := fun pair => pair.2 = f b)
  rw [List.mem_map, List.mem_map]
  simpa only [Prod.map_snd, inj.eq_iff, mem_def] using image

theorem domain_renamed (inj : Function.Injective f) (hground : ground.Renamed order f ground')
    (h : r.RenamedPairs order f q) : (domain ground r).Renamed order f (domain ground' q) :=
  hground.filter fun a _ => decide_eq_decide.mpr (mem_map_fst_renamed inj h a)

theorem codomain_renamed (inj : Function.Injective f) (hground : ground.Renamed order f ground')
    (h : r.RenamedPairs order f q) : (codomain ground r).Renamed order f (codomain ground' q) :=
  hground.filter fun b _ => decide_eq_decide.mpr (mem_map_snd_renamed inj h b)

end Parts

end RelCalc.Relation
