/-!
# Backends

The languages that libraries are generated for. The set is closed.

## Main definitions

* `Backend`: a target language
* `Backend.all`: all of them, in the order in which libraries are planned
* `Backend.text`, `Backend.ofText?`: names of backends in module names and in requests
* `Backend.tag`: names of backends in structured data
-/

namespace InterfacePlan

/-- **A target language** of generated interface libraries. -/
inductive Backend where
  /-- Native libraries on top of libbinder. -/
  | cpp
  /-- Native libraries for the platform-minimal interface, also for apps. -/
  | ndk
  /-- A developer tool on top of the cpp library. -/
  | analyzer
  /-- Managed libraries. -/
  | java
  /-- Memory-safe libraries. -/
  | rust
  deriving DecidableEq, Inhabited

namespace Backend

/-- All backends, in the order in which libraries are planned. -/
def all : List Backend := [java, cpp, ndk, rust, analyzer]

/-- The name of a backend in module names. -/
def text : Backend → String
  | cpp => "cpp"
  | ndk => "ndk"
  | analyzer => "cpp-analyzer"
  | java => "java"
  | rust => "rust"

/-- The name of a backend in structured data. -/
def tag : Backend → String
  | analyzer => "cpp_analyzer"
  | b => b.text

/-- The backend that a text stands for, which may be its text or its tag. -/
def ofText? (s : String) : Option Backend :=
  all.find? fun b => b.text = s || b.tag = s

@[simp] theorem mem_all (b : Backend) : b ∈ all := by cases b <;> decide

@[simp] theorem ofText?_text (b : Backend) : ofText? b.text = some b := by cases b <;> decide

@[simp] theorem ofText?_tag (b : Backend) : ofText? b.tag = some b := by cases b <;> decide

theorem text_inj {a b : Backend} (h : a.text = b.text) : a = b := by
  have := ofText?_text a
  rw [h, ofText?_text] at this
  exact (Option.some.inj this).symm

theorem tag_inj {a b : Backend} (h : a.tag = b.tag) : a = b := by
  have := ofText?_tag a
  rw [h, ofText?_tag] at this
  exact (Option.some.inj this).symm

end Backend

end InterfacePlan
