import Mathlib.Data.List.Infix
import InterfacePlan.Library.Dispatch
import InterfacePlan.Plan.Requests
import InterfacePlan.Proofs.Interface.Versions
/-!
# Names of planned modules

The answer to a request has up to three names: of the source generator, of the placeholder, and of
the library. Each consists of a stem, which is the versioned name (the plain one for the analyzer),
and an ending that tells the backend and the role. No ending is the end of another one, so a name
determines its stem, its backend and its role, whatever interfaces are called.

## Main definitions

* `Role`: what a name of an answer is the name of
* `Request.stem`, `Request.nameOf`: the names of the answer to a request

## Main results

* `Role.append_ending_inj`: a name determines its stem, its backend and its role
* `Interface.nodup_requests`, `Interface.eq_of_stem_eq`: an interface has no two requests whose
  answers share a name
-/

namespace InterfacePlan

/-- What a name in the answer to a request is the name of. -/
inductive Role where
  | source
  | placeholder
  | library
  deriving DecidableEq

namespace Role

/-- How the name of a module ends by its role. -/
def suffix : Role → String
  | source => "-source"
  | placeholder => "-generator"
  | library => ""

/-- What stands behind the stem of a name. -/
def ending (backend : Backend) (role : Role) : String := "-" ++ backend.text ++ role.suffix

theorem eq_of_ending_suffix {b c : Backend} {k l : Role}
    (h : (ending b k).toList <:+ (ending c l).toList) : b = c ∧ k = l := by
  revert h
  -- There are only fifteen endings, so all pairs are compared.
  cases b <;> cases c <;> cases k <;> cases l <;> decide

/-- **A name determines its stem, its backend and its role.** -/
theorem append_ending_inj {s t : String} {b c : Backend} {k l : Role} :
    s ++ ending b k = t ++ ending c l ↔ s = t ∧ b = c ∧ k = l := by
  constructor
  · intro h
    have hlist : s.toList ++ (ending b k).toList = t.toList ++ (ending c l).toList := by
      rw [← String.toList_append, h, String.toList_append]
    -- Of two ends of the same text, one is an end of the other.
    have hsuffix : (ending b k).toList <:+ s.toList ++ (ending b k).toList :=
      List.suffix_append ..
    have hsuffix' : (ending c l).toList <:+ s.toList ++ (ending b k).toList :=
      hlist ▸ List.suffix_append ..
    have hbk : b = c ∧ k = l := by
      rcases List.suffix_or_suffix_of_suffix hsuffix hsuffix' with hs | hs
      · exact eq_of_ending_suffix hs
      · obtain ⟨rfl, rfl⟩ := eq_of_ending_suffix hs
        exact ⟨rfl, rfl⟩
    obtain ⟨rfl, rfl⟩ := hbk
    exact ⟨(String.append_left_inj _).1 h, rfl, rfl⟩
  · rintro ⟨rfl, rfl, rfl⟩
    rfl

end Role

namespace Request

/-- What the names of the answer to a request start with. -/
def stem (q : Request) : String :=
  if q.backend = .analyzer then q.interface.name else q.interface.versionedName q.version

theorem stem_of_eq {q : Request} (h : q.backend = .analyzer) : q.stem = q.interface.name :=
  if_pos h

theorem stem_of_ne {q : Request} (h : q.backend ≠ .analyzer) :
    q.stem = q.interface.versionedName q.version :=
  if_neg h

/-- **The name of a role** in the answer to a request. -/
def nameOf (q : Request) (role : Role) : String := q.stem ++ role.ending q.backend

theorem nameOf_inj {p q : Request} {k l : Role} :
    p.nameOf k = q.nameOf l ↔ p.stem = q.stem ∧ p.backend = q.backend ∧ k = l :=
  Role.append_ending_inj

theorem generatorName_eq (q : Request) : q.generatorName = q.nameOf .source := by
  unfold generatorName nameOf stem Native.analyzerSourceName Native.analyzerName sourceName
    libraryName Role.ending Role.suffix
  split
  case isTrue h => simp [h, String.append_assoc]
  case isFalse => simp [String.append_assoc]

theorem libraryName_eq {q : Request} (h : q.backend ≠ .analyzer) :
    q.libraryName = q.nameOf .library := by
  simp [libraryName, nameOf, stem, h, Role.ending, Role.suffix, String.append_assoc]

theorem analyzerName_eq {q : Request} (h : q.backend = .analyzer) :
    Native.analyzerName q.interface = q.nameOf .library := by
  simp [Native.analyzerName, nameOf, stem, h, Role.ending, Role.suffix, String.append_assoc]

theorem placeholder_name_eq {q : Request} (h : q.backend ≠ .analyzer) (kind : ModuleKind) :
    (q.placeholder kind).name = q.nameOf .placeholder := by
  simp [placeholder, Placeholder.ofLibrary, libraryName, nameOf, stem, h, Role.ending, Role.suffix,
    String.append_assoc]

theorem placeholder_library_name_eq {q : Request} (h : q.backend ≠ .analyzer) (kind : ModuleKind) :
    (q.placeholder kind).library.name = q.nameOf .library :=
  libraryName_eq h

end Request

namespace Interface

variable {i : Interface} {settings : Settings}

theorem request_inj {v w : String} {b c : Backend} :
    i.request settings v b = i.request settings w c ↔ v = w ∧ b = c := by
  constructor
  · intro h
    exact ⟨congrArg Request.version h, congrArg Request.backend h⟩
  · rintro ⟨rfl, rfl⟩
    rfl

theorem interface_of_mem_requests {q : Request} (h : q ∈ i.requests settings) :
    q.interface = i := by
  obtain ⟨version, backend, -, -, rfl⟩ := mem_requests.1 h
  rfl

theorem version_mem_of_mem_requests {q : Request} (h : q ∈ i.requests settings) :
    q.version ∈ i.buildVersions := by
  obtain ⟨version, backend, hv, -, rfl⟩ := mem_requests.1 h
  exact hv

theorem nodup_requests (valid : i.validateVersions = .ok ()) : (i.requests settings).Nodup := by
  unfold requests
  rw [List.nodup_flatMap]
  constructor
  · intro backend _
    apply List.Nodup.map (fun v w h => (request_inj.1 h).1)
    exact (nodup_buildVersions valid).filter _
  · have hall : Backend.all.Nodup := by decide
    apply hall.pairwise_of_forall_ne
    intro b _ c _ hne q hb hc
    apply hne
    obtain ⟨v, -, rfl⟩ := List.mem_map.1 hb
    obtain ⟨w, -, h⟩ := List.mem_map.1 hc
    exact (request_inj.1 h).2.symm

/-- The analyzer is requested for the version in development only. -/
theorem generates_analyzer_iff {version : String} : i.generates version .analyzer = true ↔
    i.enables .analyzer = true ∧ version = i.nextVersion := by
  simp [generates, isNextVersion_iff]

/-- Requests for one interface whose answers start with the same stem and are for the same backend
are the same. -/
theorem eq_of_stem_eq {p q : Request} (hp : p ∈ i.requests settings) (hq : q ∈ i.requests settings)
    (hstem : p.stem = q.stem) (hbackend : p.backend = q.backend) : p = q := by
  obtain ⟨v, b, -, hv, rfl⟩ := mem_requests.1 hp
  obtain ⟨w, c, -, hw, rfl⟩ := mem_requests.1 hq
  obtain rfl : b = c := hbackend
  refine request_inj.2 ⟨?_, rfl⟩
  by_cases hb : b = .analyzer
  · rw [hb, generates_analyzer_iff] at hv hw
    rw [hv.2, hw.2]
  · rw [Request.stem_of_ne hb, Request.stem_of_ne hb] at hstem
    exact versionedName_injective i hstem

end Interface

end InterfacePlan
