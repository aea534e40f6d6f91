import SensorLib.Base.Lookup
import SensorLib.Base.Runs
import SensorLib.Registry.Methods

/-! # Links and their canonical pointers

A link migrates between two maps, and `AddLink` may delete the object it is
given and put another pointer in its place. The log of the calls says which
pointer an id must have and which ids are listed.
-/

namespace SensorLib

/-- The registry and the link objects on the heap. -/
structure LinkStore where
  registry : BratislavaSocketRegistry
  links : UnorderedMap LinkPtr BratislavaLink

namespace LinkStore

def empty : LinkStore := ⟨.empty, ∅⟩

variable (w : LinkStore)

/-- The pointer is passed by reference: the first component is what the caller is left with. -/
def addLink (link : LinkPtr) : LinkPtr × LinkStore :=
  match w.links.lookup link with
  | some object =>
    let id := object.linkID
    match w.registry.activeLinks.lookup id with
    | some stored =>
      if stored ≠ link then (stored, { w with links := w.links.erase link }) else (link, w)
    | none =>
      match w.registry.inactiveLinks.lookup id with
      | some stored =>
        let registry := { w.registry with
          activeLinks := w.registry.activeLinks.insert id stored
          inactiveLinks := w.registry.inactiveLinks.erase id }
        if stored ≠ link then (stored, ⟨registry, w.links.erase link⟩)
        else (link, { w with registry })
      | none =>
        (link, { w with registry := { w.registry with
          activeLinks := w.registry.activeLinks.insert id link } })
  | none => (link, w)

def removeLinkId (id : String) : LinkStore :=
  match w.registry.activeLinks.lookup id with
  | some stored =>
    { w with registry := { w.registry with
        inactiveLinks := w.registry.inactiveLinks.insert id stored
        activeLinks := w.registry.activeLinks.erase id } }
  | none => w

def removeLink (link : LinkPtr) : LinkStore :=
  match w.links.lookup link with
  | some object => w.removeLinkId object.linkID
  | none => w

/-- An unordered map is walked in no particular order. -/
def getLinks : Multiset LinkPtr := w.registry.activeLinks.entries.map fun entry => entry.2

def getLink (id : String) : Option LinkPtr :=
  match w.registry.inactiveLinks.lookup id with
  | some stored => some stored
  | none => w.registry.activeLinks.lookup id

/-- The linkID of the object at an address. -/
def linkID (link : LinkPtr) : Option String := (w.links.lookup link).map fun object => object.linkID

def Stored (link : LinkPtr) : Prop :=
  ∃ id, w.registry.activeLinks.lookup id = some link ∨
    w.registry.inactiveLinks.lookup id = some link

end LinkStore

/-! ## Runs and their log -/

inductive LinkEvent
  | added (id : String) (link : LinkPtr)
  | removed (id : String)
  deriving DecidableEq, Repr

/-- The pointer of the first `AddLink` for an id, in a log with the newest event first. -/
def firstPointer : List LinkEvent → String → Option LinkPtr
  | [], _ => none
  | .added i link :: log, id =>
    match firstPointer log id with
    | some first => some first
    | none => if i = id then some link else none
  | .removed _ :: log, id => firstPointer log id

/-- The last operation on an id that had an effect was `AddLink`. `RemoveLink` has an effect only
where this holds. -/
def lastAdded : List LinkEvent → String → Bool
  | [], _ => false
  | .added i _ :: log, id => if i = id then true else lastAdded log id
  | .removed i :: log, id => if i = id then false else lastAdded log id

/-- The calls, and what callers do to link objects between them. -/
inductive LinkOperation
  | addLink (link : LinkPtr)
  | removeLinkId (id : String)
  | removeLink (link : LinkPtr)
  | newLink (link : LinkPtr) (object : BratislavaLink)
  | updateLink (link : LinkPtr) (object : BratislavaLink)
  | deleteLink (link : LinkPtr)

structure LinkRun where
  store : LinkStore
  log : List LinkEvent

namespace LinkRun

def empty : LinkRun := ⟨.empty, []⟩

def next (w : LinkRun) : LinkOperation → LinkRun
  | .addLink link =>
    match w.store.linkID link with
    | some id => ⟨(w.store.addLink link).2, .added id link :: w.log⟩
    | none => w
  | .removeLinkId id => ⟨w.store.removeLinkId id, .removed id :: w.log⟩
  | .removeLink link =>
    match w.store.linkID link with
    | some id => ⟨w.store.removeLink link, .removed id :: w.log⟩
    | none => w
  | .newLink link object | .updateLink link object =>
    { w with store := { w.store with links := w.store.links.insert link object } }
  | .deleteLink link =>
    { w with store := { w.store with links := w.store.links.erase link } }

/-- Pointers passed in are live, a linkID never changes, `new` returns an address that is not in
use, and callers delete only links that the registry does not hold. -/
def Admissible (w : LinkRun) : LinkOperation → Prop
  | .addLink link | .removeLink link => link ∈ w.store.links
  | .removeLinkId _ => True
  | .newLink link _ => link ∉ w.store.links
  | .updateLink link object => w.store.linkID link = some object.linkID
  | .deleteLink link => ¬ w.store.Stored link

end LinkRun

def linkMachine : Runs.Machine LinkRun LinkOperation where
  guard := LinkRun.Admissible
  next := LinkRun.next

/-- The maps agree with the log, and hold pointers to live links under their own ids. -/
structure LinkRun.Canonical (w : LinkRun) : Prop where
  live : ∀ id link, w.store.registry.activeLinks.lookup id = some link ∨
    w.store.registry.inactiveLinks.lookup id = some link → w.store.linkID link = some id
  disjoint : ∀ id, id ∈ w.store.registry.activeLinks → id ∉ w.store.registry.inactiveLinks
  first : ∀ id, w.store.getLink id = firstPointer w.log id
  active : ∀ id, id ∈ w.store.registry.activeLinks ↔ lastAdded w.log id = true

namespace LinkStore

variable {w : LinkStore} {link : LinkPtr} {id : String}

theorem exists_of_linkID (h : w.linkID link = some id) :
    ∃ object, w.links.lookup link = some object ∧ object.linkID = id :=
  Option.map_eq_some_iff.mp h

theorem stored_of_getLink {stored : LinkPtr} (h : w.getLink id = some stored) :
    w.registry.activeLinks.lookup id = some stored ∨
      w.registry.inactiveLinks.lookup id = some stored := by
  rw [getLink] at h
  split at h
  · rename_i hinactive
    exact Or.inr (h ▸ hinactive)
  · exact Or.inl h

theorem addLink_active {stored : LinkPtr} (h : w.linkID link = some id)
    (hactive : w.registry.activeLinks.lookup id = some stored) :
    w.addLink link =
      (stored, if stored ≠ link then { w with links := w.links.erase link } else w) := by
  obtain ⟨object, hobject, rfl⟩ := exists_of_linkID h
  by_cases hne : stored = link
  · simp [addLink, hobject, hactive, hne]
  · simp [addLink, hobject, hactive, hne]

theorem addLink_inactive {stored : LinkPtr} (h : w.linkID link = some id)
    (hactive : w.registry.activeLinks.lookup id = none)
    (hinactive : w.registry.inactiveLinks.lookup id = some stored) :
    w.addLink link = (stored,
      { registry := { w.registry with
          activeLinks := w.registry.activeLinks.insert id stored
          inactiveLinks := w.registry.inactiveLinks.erase id }
        links := if stored ≠ link then w.links.erase link else w.links }) := by
  obtain ⟨object, hobject, rfl⟩ := exists_of_linkID h
  by_cases hne : stored = link
  · simp [addLink, hobject, hactive, hinactive, hne]
  · simp [addLink, hobject, hactive, hinactive, hne]

theorem addLink_new (h : w.linkID link = some id)
    (hactive : w.registry.activeLinks.lookup id = none)
    (hinactive : w.registry.inactiveLinks.lookup id = none) :
    w.addLink link = (link, { w with registry := { w.registry with
      activeLinks := w.registry.activeLinks.insert id link } }) := by
  obtain ⟨object, hobject, rfl⟩ := exists_of_linkID h
  simp [addLink, hobject, hactive, hinactive]

/-- `w'` lists `id` with the pointer `canonical`, and may have deleted `link` if it is another. -/
structure Lists (w w' : LinkStore) (id : String) (link canonical : LinkPtr) : Prop where
  active : ∀ x, w'.registry.activeLinks.lookup x =
    if x = id then some canonical else w.registry.activeLinks.lookup x
  inactive : ∀ x, w'.registry.inactiveLinks.lookup x =
    if x = id then none else w.registry.inactiveLinks.lookup x
  links : ∀ p, p ≠ link ∨ canonical = link → w'.links.lookup p = w.links.lookup p

theorem lookup_keep_or_erase (m : UnorderedMap LinkPtr BratislavaLink) {stored p : LinkPtr}
    (hp : p ≠ link ∨ stored = link) :
    (if stored ≠ link then m.erase link else m).lookup p = m.lookup p := by
  by_cases hne : stored = link
  · simp [hne]
  · rw [if_pos hne, Finmap.lookup_erase_ne (hp.resolve_right hne)]

/-- The three branches of `AddLink` as one. -/
theorem addLink_lists
    (hdisjoint : ∀ x, x ∈ w.registry.activeLinks → x ∉ w.registry.inactiveLinks)
    (h : w.linkID link = some id) :
    (w.addLink link).1 = (w.getLink id).getD link ∧
      Lists w (w.addLink link).2 id link ((w.getLink id).getD link) := by
  cases hactive : w.registry.activeLinks.lookup id with
  | some stored =>
    have hinactive : w.registry.inactiveLinks.lookup id = none :=
      Finmap.lookup_eq_none.mpr (hdisjoint id (Finmap.mem_iff.mpr ⟨stored, hactive⟩))
    have hget : w.getLink id = some stored := by simp [getLink, hactive, hinactive]
    rw [addLink_active h hactive, hget]
    refine ⟨rfl, ?_, ?_, ?_⟩
    · intro x
      split <;> exact Finmap.lookup_eq_ite hactive x
    · intro x
      split <;> exact Finmap.lookup_eq_ite hinactive x
    · intro p hp
      have hlinks := lookup_keep_or_erase w.links hp
      rw [Option.getD_some] at hlinks
      rw [← hlinks]
      split <;> rfl
  | none =>
    cases hinactive : w.registry.inactiveLinks.lookup id with
    | some stored =>
      have hget : w.getLink id = some stored := by simp [getLink, hinactive]
      rw [addLink_inactive h hactive hinactive, hget]
      exact ⟨rfl, fun x => Finmap.lookup_insert_ite _ _ _ _,
        fun x => Finmap.lookup_erase_ite _ _ _, fun p hp => lookup_keep_or_erase w.links hp⟩
    | none =>
      have hget : w.getLink id = none := by simp [getLink, hactive, hinactive]
      rw [addLink_new h hactive hinactive, hget]
      exact ⟨rfl, fun x => Finmap.lookup_insert_ite _ _ _ _, Finmap.lookup_eq_ite hinactive,
        fun p _ => rfl⟩

/-- `w'` has `id` as an inactive link, if `w` has it at all. -/
structure Delists (w w' : LinkStore) (id : String) : Prop where
  active : ∀ x, w'.registry.activeLinks.lookup x =
    if x = id then none else w.registry.activeLinks.lookup x
  inactive : ∀ x, w'.registry.inactiveLinks.lookup x =
    if x = id then w.getLink id else w.registry.inactiveLinks.lookup x
  links : w'.links = w.links

theorem removeLinkId_delists
    (hdisjoint : ∀ x, x ∈ w.registry.activeLinks → x ∉ w.registry.inactiveLinks) (id : String) :
    Delists w (w.removeLinkId id) id := by
  cases hactive : w.registry.activeLinks.lookup id with
  | some stored =>
    have hinactive : w.registry.inactiveLinks.lookup id = none :=
      Finmap.lookup_eq_none.mpr (hdisjoint id (Finmap.mem_iff.mpr ⟨stored, hactive⟩))
    have hget : w.getLink id = some stored := by simp [getLink, hactive, hinactive]
    simp only [removeLinkId, hactive]
    refine ⟨fun x => Finmap.lookup_erase_ite _ _ _, fun x => ?_, rfl⟩
    rw [hget]
    exact Finmap.lookup_insert_ite _ _ _ _
  | none =>
    have hget : w.getLink id = w.registry.inactiveLinks.lookup id := by
      simp only [getLink, hactive]
      split <;> simp_all
    simp only [removeLinkId, hactive]
    exact ⟨Finmap.lookup_eq_ite hactive, Finmap.lookup_eq_ite hget.symm, rfl⟩

end LinkStore

namespace LinkRun

namespace Canonical

variable {w : LinkRun} (h : w.Canonical) {link : LinkPtr} {id : String}

include h

theorem getLink_of_stored {x : String} (hx : w.store.registry.activeLinks.lookup x = some link ∨
    w.store.registry.inactiveLinks.lookup x = some link) : w.store.getLink x = some link := by
  rcases hx with hx | hx
  · have hinactive := Finmap.lookup_eq_none.mpr (h.disjoint x (Finmap.mem_iff.mpr ⟨link, hx⟩))
    simp [LinkStore.getLink, hx, hinactive]
  · simp [LinkStore.getLink, hx]

/-- The log gives the pointer that `AddLink` keeps. -/
theorem firstPointer_added :
    firstPointer (.added id link :: w.log) id = some ((w.store.getLink id).getD link) := by
  rw [firstPointer, h.first]
  cases firstPointer w.log id <;> simp

theorem addLink (hid : w.store.linkID link = some id) :
    (w.next (.addLink link)).Canonical ∧
      some (w.store.addLink link).1 = firstPointer (w.next (.addLink link)).log id ∧
      ∀ p, w.store.Stored p → p ∈ (w.store.addLink link).2.links := by
  obtain ⟨hcaller, hlists⟩ := LinkStore.addLink_lists h.disjoint hid
  set canonical := (w.store.getLink id).getD link with hcanonical
  have hnext : w.next (.addLink link) =
      ⟨(w.store.addLink link).2, .added id link :: w.log⟩ := by
    simp only [LinkRun.next, hid]
  have hkept : ∀ x p, w.store.registry.activeLinks.lookup x = some p ∨
      w.store.registry.inactiveLinks.lookup x = some p → p ≠ link ∨ canonical = link := by
    intro x p hp
    by_cases hpl : p = link
    · right
      have hx : x = id := by
        have hlive := h.live x p hp
        rw [hpl, hid] at hlive
        exact (Option.some.inj hlive).symm
      rw [hcanonical, ← hx, h.getLink_of_stored hp, Option.getD_some, hpl]
    · exact Or.inl hpl
  have hcanonicalID : w.store.linkID canonical = some id := by
    cases hget : w.store.getLink id with
    | none => simpa [hcanonical, hget] using hid
    | some stored => simpa [hcanonical, hget] using h.live id stored (LinkStore.stored_of_getLink hget)
  have hlinkID : ∀ p, p ≠ link ∨ canonical = link →
      (w.store.addLink link).2.linkID p = w.store.linkID p := by
    intro p hp
    rw [LinkStore.linkID, hlists.links p hp, LinkStore.linkID]
  rw [hnext]
  refine ⟨⟨?_, ?_, ?_, ?_⟩, ?_, ?_⟩
  · intro x p hp
    simp only [hlists.active, hlists.inactive] at hp
    by_cases hx : x = id
    · simp only [hx, if_true, Option.some.injEq, reduceCtorEq, or_false] at hp
      subst hp
      rw [hlinkID _ (ne_or_eq _ _), hcanonicalID, hx]
    · simp only [hx, if_false] at hp
      rw [hlinkID p (hkept x p hp), h.live x p hp]
  · intro x hx
    rw [Finmap.mem_iff] at hx ⊢
    simp only [hlists.active, hlists.inactive] at hx ⊢
    split
    · simp
    · rename_i hne
      rw [if_neg hne] at hx
      exact fun hin => h.disjoint x (Finmap.mem_iff.mpr hx) (Finmap.mem_iff.mpr hin)
  · intro x
    by_cases hx : x = id
    · subst hx
      rw [h.firstPointer_added, LinkStore.getLink]
      simp [hlists.inactive, hlists.active, hcanonical]
    · have hfirst : firstPointer (.added id link :: w.log) x = firstPointer w.log x := by
        rw [firstPointer]
        cases firstPointer w.log x <;> simp [Ne.symm hx]
      rw [hfirst, ← h.first, LinkStore.getLink, LinkStore.getLink, hlists.inactive, hlists.active,
        if_neg hx, if_neg hx]
  · intro x
    rw [Finmap.mem_iff, hlists.active, lastAdded]
    by_cases hx : x = id
    · simp [hx]
    · rw [if_neg hx, if_neg (Ne.symm hx), ← h.active, Finmap.mem_iff]
  · rw [h.firstPointer_added, hcaller]
  · rintro p ⟨x, hp⟩
    have hlive := h.live x p hp
    rw [← hlinkID p (hkept x p hp)] at hlive
    obtain ⟨object, hobject, _⟩ := LinkStore.exists_of_linkID hlive
    exact Finmap.mem_iff.mpr ⟨object, hobject⟩

theorem removeLinkId (id : String) :
    (⟨w.store.removeLinkId id, .removed id :: w.log⟩ : LinkRun).Canonical := by
  have hdelists := LinkStore.removeLinkId_delists h.disjoint id
  refine ⟨?_, ?_, ?_, ?_⟩
  · intro x p hp
    simp only [hdelists.active, hdelists.inactive] at hp
    have hstored : w.store.linkID p = some x := by
      by_cases hx : x = id
      · subst hx
        simp only [if_true, reduceCtorEq, false_or] at hp
        exact h.live x p (LinkStore.stored_of_getLink hp)
      · simp only [hx, if_false] at hp
        exact h.live x p hp
    rw [← hstored, LinkStore.linkID, LinkStore.linkID, hdelists.links]
  · intro x hx
    rw [Finmap.mem_iff] at hx ⊢
    simp only [hdelists.active, hdelists.inactive] at hx ⊢
    by_cases hne : x = id
    · simp [hne] at hx
    · rw [if_neg hne] at hx ⊢
      exact fun hin => h.disjoint x (Finmap.mem_iff.mpr hx) (Finmap.mem_iff.mpr hin)
  · intro x
    rw [firstPointer, ← h.first, LinkStore.getLink, hdelists.inactive, hdelists.active]
    by_cases hx : x = id
    · subst hx
      simp only [if_true]
      split <;> simp_all
    · simp only [hx, if_false]
      rfl
  · intro x
    rw [Finmap.mem_iff, hdelists.active, lastAdded]
    by_cases hx : x = id
    · simp [hx]
    · rw [if_neg hx, if_neg (Ne.symm hx), ← h.active, Finmap.mem_iff]

/-- Only the link objects change, and every stored one keeps its linkID. -/
theorem withLinks {links : UnorderedMap LinkPtr BratislavaLink}
    (hlinks : ∀ p, w.store.Stored p →
      (links.lookup p).map (fun object => object.linkID) = w.store.linkID p) :
    (⟨{ w.store with links }, w.log⟩ : LinkRun).Canonical where
  live x p hp := (hlinks p ⟨x, hp⟩).trans (h.live x p hp)
  disjoint := h.disjoint
  first := h.first
  active := h.active

theorem mem_of_stored {p : LinkPtr} (hp : w.store.Stored p) : p ∈ w.store.links := by
  obtain ⟨x, hx⟩ := hp
  obtain ⟨object, hobject, _⟩ := LinkStore.exists_of_linkID (h.live x p hx)
  exact Finmap.mem_iff.mpr ⟨object, hobject⟩

theorem next {op : LinkOperation} (hadm : w.Admissible op) : (w.next op).Canonical := by
  cases op with
  | addLink link =>
    obtain ⟨object, hobject⟩ := Finmap.mem_iff.mp hadm
    have hid : w.store.linkID link = some object.linkID := by simp [LinkStore.linkID, hobject]
    exact (h.addLink hid).1
  | removeLinkId id => exact h.removeLinkId id
  | removeLink link =>
    obtain ⟨object, hobject⟩ := Finmap.mem_iff.mp hadm
    have hid : w.store.linkID link = some object.linkID := by simp [LinkStore.linkID, hobject]
    simp only [LinkRun.next, hid, LinkStore.removeLink, hobject]
    exact h.removeLinkId object.linkID
  | newLink link object =>
    refine h.withLinks fun p hp => ?_
    rw [Finmap.lookup_insert_of_ne]
    · rfl
    · rintro rfl
      exact hadm (h.mem_of_stored hp)
  | updateLink link object =>
    refine h.withLinks fun p hp => ?_
    rw [Finmap.lookup_insert_ite]
    split
    · rename_i hpl
      rw [hpl]
      exact hadm.symm
    · rfl
  | deleteLink link =>
    refine h.withLinks fun p hp => ?_
    rw [Finmap.lookup_erase_ne]
    · rfl
    · rintro rfl
      exact hadm hp

end Canonical

end LinkRun

/-- What callers can rely on in a state with this log. -/
structure LinkRun.Faithful (w : LinkRun) : Prop where
  disjoint : ∀ id, ¬ (id ∈ w.store.registry.activeLinks ∧ id ∈ w.store.registry.inactiveLinks)
  live : ∀ link, w.store.Stored link → link ∈ w.store.links
  getLink : ∀ id, w.store.getLink id = firstPointer w.log id
  listed : ∀ id, lastAdded w.log id = true ↔
    ∃ link ∈ w.store.getLinks, w.store.linkID link = some id
  listedOnce : w.store.getLinks.Nodup
  oneEach : ∀ link ∈ w.store.getLinks, ∀ other ∈ w.store.getLinks,
    w.store.linkID link = w.store.linkID other → link = other

theorem LinkStore.mem_getLinks {w : LinkStore} {link : LinkPtr} :
    link ∈ w.getLinks ↔ ∃ id, w.registry.activeLinks.lookup id = some link := by
  simp only [LinkStore.getLinks, Multiset.mem_map]
  constructor
  · rintro ⟨⟨id, stored⟩, hmem, rfl⟩
    exact ⟨id, Finmap.mem_lookup_iff.mpr hmem⟩
  · rintro ⟨id, hid⟩
    exact ⟨⟨id, link⟩, Finmap.mem_lookup_iff.mp hid, rfl⟩

theorem LinkRun.Canonical.faithful {w : LinkRun} (h : w.Canonical) : w.Faithful := by
  have hone : ∀ id id' link, w.store.registry.activeLinks.lookup id = some link →
      w.store.registry.activeLinks.lookup id' = some link → id = id' := by
    intro id id' link hid hid'
    have hlive := h.live id link (Or.inl hid)
    rw [h.live id' link (Or.inl hid')] at hlive
    exact (Option.some.inj hlive).symm
  refine ⟨?_, fun link hlink => h.mem_of_stored hlink, h.first, ?_, ?_, ?_⟩
  · rintro id ⟨hactive, hinactive⟩
    exact h.disjoint id hactive hinactive
  · intro id
    rw [← h.active, Finmap.mem_iff]
    constructor
    · rintro ⟨link, hlink⟩
      exact ⟨link, LinkStore.mem_getLinks.mpr ⟨id, hlink⟩, h.live id link (Or.inl hlink)⟩
    · rintro ⟨link, hlink, hid⟩
      obtain ⟨x, hx⟩ := LinkStore.mem_getLinks.mp hlink
      rw [h.live x link (Or.inl hx)] at hid
      cases hid
      exact ⟨link, hx⟩
  · refine Multiset.Nodup.map_on ?_ w.store.registry.activeLinks.nodupKeys.nodup
    rintro ⟨id, link⟩ hid ⟨id', link'⟩ hid' (rfl : link = link')
    obtain rfl := hone id id' link (Finmap.mem_lookup_iff.mpr hid) (Finmap.mem_lookup_iff.mpr hid')
    rfl
  · intro link hlink other hother hsame
    obtain ⟨id, hid⟩ := LinkStore.mem_getLinks.mp hlink
    obtain ⟨id', hid'⟩ := LinkStore.mem_getLinks.mp hother
    rw [h.live id link (Or.inl hid), h.live id' other (Or.inl hid')] at hsame
    cases hsame
    rw [hid] at hid'
    exact Option.some.inj hid'

/-- The first pointer of an id stays its first pointer. -/
theorem LinkRun.firstPointer_next (w : LinkRun) (op : LinkOperation) {id : String}
    {first : LinkPtr} (h : firstPointer w.log id = some first) :
    firstPointer (w.next op).log id = some first := by
  cases op with
  | addLink link =>
    simp only [LinkRun.next]
    split
    · simp only [firstPointer, h]
    · exact h
  | removeLink link =>
    simp only [LinkRun.next]
    split
    · exact h
    · exact h
  | removeLinkId | newLink | updateLink | deleteLink => exact h

theorem LinkRun.canonical_run {w : LinkRun} (hw : w.Canonical) {ops : List LinkOperation}
    (hlegal : linkMachine.Legal w ops) : (linkMachine.run w ops).Canonical :=
  hlegal.invariant (fun _ _ h hadm => h.next hadm) hw

theorem LinkRun.empty_canonical : LinkRun.empty.Canonical where
  live id link h := by
    simp [empty, LinkStore.empty, BratislavaSocketRegistry.empty] at h
  disjoint id h := by
    simp [empty, LinkStore.empty, BratislavaSocketRegistry.empty, Finmap.mem_iff] at h
  first id := rfl
  active id := by
    simp [empty, LinkStore.empty, BratislavaSocketRegistry.empty, Finmap.mem_iff, lastAdded]

/-- After every run the registry answers as the log says; the next `AddLink` gives its caller the
first pointer of the id and deletes no stored link; and no later run changes a pointer. -/
theorem links_canonical (ops : List LinkOperation) (hlegal : linkMachine.Legal .empty ops) :
    (linkMachine.run .empty ops).Faithful ∧
      (∀ link id, (linkMachine.run .empty ops).store.linkID link = some id →
        some ((linkMachine.run .empty ops).store.addLink link).1 =
            firstPointer ((linkMachine.run .empty ops).next (.addLink link)).log id ∧
          ∀ stored, (linkMachine.run .empty ops).store.Stored stored →
            stored ∈ ((linkMachine.run .empty ops).store.addLink link).2.links) ∧
      ∀ more, linkMachine.Legal (linkMachine.run .empty ops) more →
        ∀ id first, (linkMachine.run .empty ops).store.getLink id = some first →
          (linkMachine.run .empty (ops ++ more)).store.getLink id = some first := by
  have hcanonical := LinkRun.canonical_run LinkRun.empty_canonical hlegal
  refine ⟨hcanonical.faithful, fun link id hid => (hcanonical.addLink hid).2, ?_⟩
  intro more hmore id first hfirst
  rw [linkMachine.run_append, (LinkRun.canonical_run hcanonical hmore).first]
  rw [hcanonical.first] at hfirst
  have hkept : firstPointer (linkMachine.run (linkMachine.run .empty ops) more).log id =
      some first :=
    hmore.invariant (I := fun w => firstPointer w.log id = some first)
      (fun w op h _ => w.firstPointer_next op h) hfirst
  exact hkept

theorem links_canonical_two_pointers :
    (linkMachine.run .empty [.newLink 1 (.wifi "a" "aa"), .addLink 1, .removeLinkId "a",
      .newLink 2 (.wifi "a" "aa"), .addLink 2, .removeLink 1]).Faithful :=
  (links_canonical _ (by
    refine ⟨?_, ?_, trivial, ?_, ?_, ?_, trivial⟩
    all_goals simp only [linkMachine, LinkRun.Admissible]; decide)).1

end SensorLib
