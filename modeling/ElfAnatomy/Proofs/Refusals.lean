import Mathlib.Logic.Relation
import ElfAnatomy.Decoder
import ElfAnatomy.Proofs.Steps

/-!
# Refused regions

A region that does not lie in the source, or whose entries are declared to have a foreign size, is
refused, and refusing takes no call.

* `DecodeError.Refusal` : the causes that refuse a region.
* `Plan.delivers_of_refusal` : a run that ends with a refusal has had every region delivered in
  full that it asked the device for; the refused one it has not asked for.
* `Plan.Single`, `Plan.run_of_single` : where a plan has one region only, its refusal leaves the
  source as it was.
* `Linkage.run_of_refusal` : the dynamic section, with its two regions.
-/

namespace ElfAnatomy

/-- The cause refuses a region: by the size of its entries, or since it does not fit. -/
def DecodeError.Refusal : DecodeError → Prop
  | layoutMismatch .. => True
  | truncatedTable .. => True
  | _ => False

/-- The source delivers a region. -/
def Source.Delivers (s after : Source) : Prop := ∃ r bytes, s.fetch r = (.ok bytes, after)

theorem Source.fetch_of_refusal {s after : Source} {r : Region} {e : DecodeError}
    (h : s.fetch r = (.error e, after)) (he : e.Refusal) : after = s := by
  unfold fetch at h
  split at h
  · cases h
    rfl
  · split at h
    · cases h
    · split at h
      · cases h
        exact he.elim
      · cases h

namespace Plan

variable {α β : Type} {e : DecodeError}

/-- **A refused region is not asked for**: the run goes from delivery to delivery, up to the
refusal. -/
theorem delivers_of_refusal (p : Plan α) (now : Progress) (h : (p.run now).1 = .error e)
    (he : e.Refusal) :
    Relation.ReflTransGen Source.Delivers now.source (p.run now).2.source := by
  -- on the plan: each region before the refusal adds a delivery, and the refused one adds nothing
  induction p generalizing now with
  | done result => exact .refl
  | askLength next ih => exact ih _ now h
  | fetch region next ih =>
    unfold run at h ⊢
    split
    · rename_i cause after hf
      rw [hf] at h
      cases h
      rw [Source.fetch_of_refusal hf he]
    · rename_i bytes after hf
      rw [hf] at h
      exact .head ⟨region, bytes, hf⟩ (ih bytes { now with source := after } h)
  | reach stage next ih => exact ih _ h

/-! ### Plans with one region -/

/-- The plan asks for no region and refuses none, whatever the answers. -/
def Quiet : Plan α → Prop
  | done result => ∀ e, result = .error e → ¬ e.Refusal
  | askLength next => ∀ n, (next n).Quiet
  | fetch _ _ => False
  | reach _ next => next.Quiet

/-- The plan asks for one region at most, and refuses none after it has got that one. -/
def Single : Plan α → Prop
  | done _ => True
  | askLength next => ∀ n, (next n).Single
  | fetch _ next => ∀ bytes, (next bytes).Quiet
  | reach _ next => next.Single

theorem Quiet.bind {p : Plan α} {f : α → Plan β} (h : p.Quiet) (hf : ∀ a, (f a).Quiet) :
    (p.bind f).Quiet := by
  induction p with
  | done result =>
    cases result with
    | ok a => exact hf a
    | error e =>
      intro e' he'
      cases he'
      exact h e rfl
  | askLength next ih => exact fun n => ih n (h n)
  | fetch region next ih => exact h.elim
  | reach stage next ih => exact ih h

theorem Single.bind {p : Plan α} {f : α → Plan β} (h : p.Single) (hf : ∀ a, (f a).Quiet)
    (hs : ∀ a, (f a).Single) : (p.bind f).Single := by
  induction p with
  | done result =>
    cases result with
    | ok a => exact hs a
    | error e => trivial
  | askLength next ih => exact fun n => ih n (h n)
  | fetch region next ih => exact fun bytes => (h bytes).bind hf
  | reach stage next ih => exact ih h

/-- A step without questions may come before the region. -/
theorem single_lift_bind {result : Except DecodeError α} {f : α → Plan β}
    (h : ∀ a, (f a).Single) : ((done result).bind f).Single := by
  cases result with
  | ok a => exact h a
  | error e => trivial

theorem single_length_bind {f : Nat → Plan β} (h : ∀ n, (f n).Single) :
    (length.bind f).Single := h

theorem quiet_ok (a : α) : (done (.ok a)).Quiet := nofun

theorem quiet_inside (a? : Option α) : (done (inside a?)).Quiet := by
  intro e he
  obtain ⟨-, rfl⟩ := inside_eq_error_iff.1 he
  exact id

/-- **The refusal of its one region leaves the source as it was.** -/
theorem run_of_single {p : Plan α} (hp : p.Single) (now : Progress)
    (h : (p.run now).1 = .error e) (he : e.Refusal) : (p.run now).2.source = now.source := by
  -- after its region the plan refuses nothing any more
  have quiet : ∀ {q : Plan α} {now : Progress}, q.Quiet → (q.run now).1 = .error e → False := by
    intro q
    induction q with
    | done result => exact fun hq h => hq e h he
    | askLength next ih => exact fun hq h => ih _ (hq _) h
    | fetch region next ih => exact fun hq _ => hq.elim
    | reach stage next ih => exact fun hq h => ih hq h
  induction p generalizing now with
  | done result => rfl
  | askLength next ih => exact ih _ (hp _) now h
  | fetch region next ih =>
    unfold run at h ⊢
    split
    · rename_i cause after hf
      rw [hf] at h
      cases h
      exact Source.fetch_of_refusal hf he
    · rename_i bytes after hf
      rw [hf] at h
      exact (quiet (hp bytes) h).elim
  | reach stage next ih => exact ih hp _ h

theorem single_read (r : Region) : (read r).Single := quiet_ok

theorem single_leading (max : Nat) : (leading max).Single := fun _ => single_read _

theorem single_table (α : Type) [Record α] (order : ByteOrder)
    (offset count entrySize : UInt64) : (table α order offset count entrySize).Single :=
  single_lift_bind fun _ => single_length_bind fun _ => single_lift_bind fun region =>
    (single_read region).bind (fun _ => quiet_inside _) fun _ => trivial

end Plan

theorem SectionHeader.single_contents (s : SectionHeader) : s.contents.Single := by
  unfold contents
  split
  · exact Plan.single_read _
  · trivial

/-! ### The dynamic section -/

namespace Linkage

variable {order : ByteOrder} {sections : List SectionHeader} {entries : List DynamicEntry}

theorem single_readEntries (order : ByteOrder) (s : SectionHeader) :
    (readEntries order s).Single :=
  Plan.single_lift_bind fun _ => Plan.single_length_bind fun _ => Plan.single_lift_bind fun _ =>
    (Plan.single_table ..).bind (fun _ => Plan.quiet_ok _) fun _ => trivial

theorem single_readStrings : (readStrings sections entries).Single := by
  unfold readStrings
  split
  · trivial
  · split
    · trivial
    · exact (SectionHeader.single_contents _).bind (fun _ => Plan.quiet_ok _) fun _ => trivial

theorem not_refusal_of_resolve {t : StringTable} {offset : UInt64} {e : DecodeError}
    (h : t.resolve offset = .error e) : ¬ e.Refusal := by
  rcases StringTable.resolve_eq_error_iff.1 h with ⟨-, rfl⟩ | ⟨-, -, rfl⟩ |
    ⟨-, -, -, -, -, rfl⟩ <;> exact id

theorem quiet_resolveAll (t : StringTable) : (Plan.done (resolveAll t entries)).Quiet := by
  intro e he
  obtain ⟨d, -, he⟩ := exists_of_mapM_eq_error he
  exact not_refusal_of_resolve (map_eq_error_iff.1 he)

/-- Where the dynamic section is refused, no call is made; and where the table of its strings is
refused, the calls are those that have read the entries. -/
theorem run_of_refusal {now : Progress} {e : DecodeError}
    (h : ((read order sections).run now).1 = .error e) (he : e.Refusal) :
    ((read order sections).run now).2.source = now.source ∨
      ∃ i s entries, section? sections = some (i, s) ∧
        ((readEntries order s).run now).1 = .ok entries ∧
        ((read order sections).run now).2.source =
          ((readEntries order s).run now).2.source := by
  unfold read at h ⊢
  cases hs : section? sections with
  | none =>
    simp only [hs] at h
    cases h
  | some p =>
    obtain ⟨i, s⟩ := p
    have hsingle := Plan.run_of_single (e := e) (single_readEntries order s) now
    simp only [hs, Plan.bind_eq, Plan.run_bind] at h ⊢
    cases hrun : (readEntries order s).run now with
    | mk result after =>
      rw [hrun] at h hsingle
      cases result with
      | error cause =>
        cases h
        exact .inl (hsingle rfl he)
      | ok entries =>
        refine .inr ⟨i, s, entries, rfl, by rw [hrun], ?_⟩
        rw [hrun]
        dsimp only at h ⊢
        -- what is left after the entries has one region, that of the strings
        have hrest : Plan.Single (if entries.any fun e => e.tag.namesString then do
            let strings ← readStrings sections entries
            return ofStrings entries (← resolveAll strings entries)
          else return { entries }) := by
          split
          · refine single_readStrings.bind (fun t => ?_) fun t => ?_
            · exact (quiet_resolveAll t).bind fun _ => Plan.quiet_ok _
            · exact Plan.single_lift_bind fun _ => trivial
          · trivial
        exact Plan.run_of_single hrest after h he

end Linkage

end ElfAnatomy
