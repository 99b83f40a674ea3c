import NgFile.Error

/-!
# Sections of a component file

A component file holds up to three blocks between fixed tags: a script, a
template and a style.  Tags are found without regard to letter case, each
kind of block is searched over the whole file, and only the first block of a
kind counts.
-/

namespace NgFile

structure SourceFile where
  fileName : Text
  content : Text
  deriving DecidableEq

/-- The trimmed inner texts of the blocks of a file; an absent block is empty. -/
structure Sections where
  script : Text
  template : Text
  style : Text
  deriving DecidableEq

namespace Sections

structure TagPair where
  opening : Text
  closing : Text

def scriptTags : TagPair := ⟨"<script lang=\x22ts\x22>", "</script>"⟩

def templateTags : TagPair := ⟨"<template>", "</template>"⟩

def styleTags : TagPair := ⟨"<style>", "</style>"⟩

/--
Whether `c` reads as the tag character `p` when case is ignored.  By simple
case folding the long s also reads as `s`, and the Kelvin sign as `k`.
-/
def readsAs (p c : Char) : Bool :=
  c.toLower == p || (p == 's' && c.toNat == 0x17F) || (p == 'k' && c.toNat == 0x212A)

def afterTag? : Text → Text → Option Text
  | [], t => some t
  | _ :: _, [] => none
  | p :: tag, c :: rest => if readsAs p c then afterTag? tag rest else none

def afterFirst? (tag : Text) : Text → Option Text
  | [] => afterTag? tag []
  | c :: rest =>
      match afterTag? tag (c :: rest) with
      | some after => some after
      | none => afterFirst? tag rest

def beforeFirst? (tag : Text) : Text → Option Text
  | [] => (afterTag? tag []).map fun _ => []
  | c :: rest =>
      match afterTag? tag (c :: rest) with
      | some _ => some []
      | none => (beforeFirst? tag rest).map (c :: ·)

def innerText? (tags : TagPair) (content : Text) : Option Text :=
  (afterFirst? tags.opening content).bind (beforeFirst? tags.closing)

/-- The trimmed inner text of the first block, empty when there is none. -/
def firstBlock (tags : TagPair) (content : Text) : Text :=
  match innerText? tags content with
  | some inner => Text.trim inner
  | none => []

def ofContent (content : Text) : Sections :=
  { script := firstBlock scriptTags content
    template := firstBlock templateTags content
    style := firstBlock styleTags content }

/-- The blocks of a file; it must have a script or a template. -/
def extract (source : SourceFile) : Except CompileError Sections :=
  let sections := ofContent source.content
  if sections.script.isEmpty && sections.template.isEmpty then
    .error (.missingSections source.fileName)
  else .ok sections

end Sections

end NgFile
