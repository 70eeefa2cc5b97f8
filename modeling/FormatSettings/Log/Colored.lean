import FormatSettings.Log.Record
import FormatSettings.Text.Spans

namespace FormatSettings.Log

open Text (replaceSpans spanOf distanceOnLine?)

def attributeCode (number : List Char) : List Char :=
  '\x1b' :: '[' :: number ++ ['m']

structure Attribute where
  on : List Char
  off : List Char

namespace Attribute

def ofNumbers (on off : List Char) : Attribute :=
  ⟨attributeCode on, attributeCode off⟩

def color (number : List Char) : Attribute :=
  ofNumbers number ['3', '9']

def dim : Attribute :=
  ofNumbers ['2'] ['2', '2']

end Attribute

def attributes (level : Int) : List Attribute :=
  if 50 ≤ level then [.color ['9', '1']]
  else if 40 ≤ level then [.color ['3', '1']]
  else if 30 ≤ level then [.color ['3', '3']]
  else if 20 ≤ level then [.color ['3', '2']]
  else if 10 ≤ level then [.color ['9', '0']]
  else if 5 ≤ level then [.color ['3', '4']]
  else [.dim, .color ['3', '1']]

def resume (a : Attribute) (cs : List Char) : List Char :=
  replaceSpans (spanOf a.off (a.off ++ a.on)) cs

def resetCode : List Char := attributeCode ['0']

def resetSpan (on off cs : List Char) : Option (Nat × List Char) :=
  if resetCode.isPrefixOf cs then
    (distanceOnLine? resetCode (cs.drop resetCode.length)).map fun n =>
      let length := resetCode.length + n + resetCode.length
      (length, off ++ cs.take length ++ on)
  else none

def lineBreakSpan (on off : List Char) : List Char → Option (Nat × List Char)
  | '\r' :: '\n' :: _ => some (2, off ++ ['\r', '\n'] ++ on)
  | '\n' :: _ => some (1, off ++ ['\n'] ++ on)
  | _ => none

def colored (attributes : List Attribute) (cs : List Char) : List Char :=
  let on := attributes.flatMap (·.on)
  let off := attributes.flatMap (·.off)
  let resumed := attributes.foldl (fun cs a => resume a cs) cs
  on ++ replaceSpans (lineBreakSpan on off) (replaceSpans (resetSpan on off) resumed) ++ off

def coloredLine (level : Int) (message : String) : String :=
  String.ofList (colored (attributes level) (line level message).toList)

end FormatSettings.Log
