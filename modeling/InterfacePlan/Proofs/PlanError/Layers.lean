import InterfacePlan.PlanError
/-!
# Requests around errors

An error of a request is wrapped in it. Every step on the way out may try to do so, but the first
one wins: an error that names its request is left alone, so no request is wrapped in another one.

What users are told does not rely on this. Whatever layers there are, the diagnostic is that of the
innermost cause, and says for each layer in which request this happened, from the inside out.

## Main definitions

* `PlanError.namesRequest`: the errors that name the request in which they arose
* `PlanError.Layer`: a request around an error
* `PlanError.innermost`, `PlanError.layers`: the innermost cause, and the requests around it

## Main results

* `PlanError.foldl_within`: an error that passes through requests names the first one
* `PlanError.diagnostic_eq`: a diagnostic, by the innermost cause and the layers
* `PlanError.layered_diagnostic`: what layers change, and what they do not
-/

namespace InterfacePlan.PlanError

/-! ## Layers -/

/-- Whether an error names the request in which it arose. -/
def namesRequest : PlanError → Bool
  | request .. => true
  | _ => false

theorem inRequest_eq {e : PlanError} (h : e.namesRequest = false) (interface version : String)
    (backend : Backend) :
    e.inRequest interface version backend = .request interface version backend e := by
  cases e with
  | request => cases h
  | _ => rfl

/-- **A request around an error.** -/
structure Layer where
  interface : String
  version : String
  backend : Backend
  deriving DecidableEq

/-- The context line for a layer. -/
def Layer.line (l : Layer) : String := requestLine l.interface l.version l.backend

/-- **A line that names a request**: its interface, its version as users write it, and its
backend. -/
structure Layer.IsNamedIn (l : Layer) (line : String) : Prop where
  interface : l.interface.toList <:+: line.toList
  version : (versionLabel l.version).toList <:+: line.toList
  backend : l.backend.text.toList <:+: line.toList

/-- An error with a layer around it. -/
def wrapped (e : PlanError) (l : Layer) : PlanError :=
  request l.interface l.version l.backend e

/-- An error that passes through a request on its way out. -/
def within (e : PlanError) (l : Layer) : PlanError :=
  e.inRequest l.interface l.version l.backend

/-- The innermost cause of an error. -/
def innermost : PlanError → PlanError
  | request _ _ _ cause => cause.innermost
  | e => e

/-- The layers around the innermost cause, from the inside out. -/
def layers : PlanError → List Layer
  | request interface version backend cause => cause.layers ++ [⟨interface, version, backend⟩]
  | _ => []

variable {e : PlanError} {l : Layer}

theorem namesRequest_innermost (e : PlanError) : e.innermost.namesRequest = false := by
  induction e with
  | request _ _ _ _ ih => exact ih
  | _ => rfl

/-- **An error is its innermost cause with its layers around it.** -/
theorem foldl_wrapped_layers (e : PlanError) : e.layers.foldl wrapped e.innermost = e := by
  induction e with
  | request interface version backend cause ih =>
    rw [layers, innermost, List.foldl_append, ih]
    rfl
  | _ => rfl

/-! ## Passing through requests -/

theorem within_of_namesRequest (h : e.namesRequest = true) : e.within l = e := by
  cases e with
  | request => rfl
  | _ => cases h

theorem within_of_not_namesRequest (h : e.namesRequest = false) : e.within l = e.wrapped l :=
  inRequest_eq h _ _ _

theorem foldl_within_of_namesRequest (h : e.namesRequest = true) (ls : List Layer) :
    ls.foldl within e = e := by
  induction ls with
  | nil => rfl
  | cons l ls ih => rw [List.foldl_cons, within_of_namesRequest h, ih]

/-- **An error that passes through requests names the first one**, unless it named one before. -/
theorem foldl_within (e : PlanError) (first : Layer) (rest : List Layer) :
    (first :: rest).foldl within e = if e.namesRequest then e else e.wrapped first := by
  rw [List.foldl_cons]
  cases h : e.namesRequest with
  | true => rw [within_of_namesRequest h, foldl_within_of_namesRequest h, if_pos rfl]
  | false =>
    rw [within_of_not_namesRequest h, if_neg (by simp)]
    exact foldl_within_of_namesRequest rfl rest

/-! ## Diagnostics -/

/-- What users are told of an error without layers. -/
theorem diagnostic_of_not_namesRequest (h : e.namesRequest = false) : e.diagnostic =
    { severity := .error, message := e.message, context := e.ownContext,
      suggestions := e.ownSuggestions, location := e.ownLocation } := by
  cases e with
  | request => cases h
  | _ => rfl

theorem diagnostic_wrapped (e : PlanError) (l : Layer) : (e.wrapped l).diagnostic
    = { e.diagnostic with context := e.diagnostic.context ++ [l.line] } :=
  rfl

/-- **The diagnostic of an error** is that of its innermost cause, with a line for each layer. -/
theorem diagnostic_eq (e : PlanError) : e.diagnostic = { e.innermost.diagnostic with
    context := e.innermost.diagnostic.context ++ e.layers.map Layer.line } := by
  induction e with
  | request interface version backend cause ih =>
    have houter := diagnostic_wrapped cause ⟨interface, version, backend⟩
    rw [ih] at houter
    rw [layers, innermost, List.map_append, ← List.append_assoc]
    exact houter
  | _ => simp [innermost, layers]

theorem isNamedIn_line (l : Layer) : l.IsNamedIn l.line := by
  have infix_left {s t : String} {u : List Char} (h : u <:+: s.toList) : u <:+: (s ++ t).toList :=
    h.trans (String.toList_append ▸ List.infix_append' [] s.toList t.toList)
  have infix_right (s t : String) : t.toList <:+: (s ++ t).toList :=
    String.toList_append ▸ (List.suffix_append ..).isInfix
  exact {
    interface := infix_left <| infix_left <| infix_left <| infix_left <| infix_left <|
      infix_right ..
    version := infix_left <| infix_left <| infix_left <| infix_right ..
    backend := infix_left <| infix_right .. }

/-- **Errors and the requests around them.** However many requests an error passes through, it names
the first one, or the one that it named before. And whatever layers there are around the innermost
cause, the diagnostic tells what the diagnostic of the cause tells, and then names the layers, from
the inside out. -/
theorem layered_diagnostic :
    (∀ (e : PlanError) (first : Layer) (rest : List Layer),
        (first :: rest).foldl within e = if e.namesRequest then e else e.wrapped first)
      ∧ (∀ e : PlanError, e.innermost.namesRequest = false
          ∧ e.layers.foldl wrapped e.innermost = e
          ∧ e.innermost.diagnostic.message = e.innermost.message
          ∧ e.innermost.diagnostic.severity = .error
          ∧ e.diagnostic = { e.innermost.diagnostic with
              context := e.innermost.diagnostic.context ++ e.layers.map Layer.line })
      ∧ ∀ l : Layer, l.IsNamedIn l.line := by
  refine ⟨foldl_within, fun e => ?_, isNamedIn_line⟩
  have hcause := diagnostic_of_not_namesRequest (namesRequest_innermost e)
  exact ⟨namesRequest_innermost e, foldl_wrapped_layers e, by rw [hcause], by rw [hcause],
    diagnostic_eq e⟩

/-- Requests that stand in each other, the second one of an unversioned build. -/
example : ((noFrozenVersions "baz").wrapped ⟨"foo", "2", .cpp⟩ |>.wrapped ⟨"bar", "", .java⟩
    |>.diagnostic.context)
      = ["while generating `foo` version 2 for the cpp backend",
        "while generating `bar` version (unversioned) for the java backend"] := by decide

end InterfacePlan.PlanError
