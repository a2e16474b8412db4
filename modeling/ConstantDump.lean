import ConstantDump.Binary64.Basic
import ConstantDump.Binary64.Rounding
import ConstantDump.Binary64.Shortest
import ConstantDump.Binary64.Text
import ConstantDump.Bracket
import ConstantDump.Encoding.Units
import ConstantDump.Encoding.Utf16
import ConstantDump.Encoding.Utf8
import ConstantDump.Enumeration
import ConstantDump.Line.Constant
import ConstantDump.Line.Enumeration
import ConstantDump.Line.Literal
import ConstantDump.Line.Record
import ConstantDump.Literal.CharacterType
import ConstantDump.Literal.Decode
import ConstantDump.Literal.Form
import ConstantDump.Literal.Number
import ConstantDump.Literal.Types
import ConstantDump.Name.Components
import ConstantDump.Name.Identifier
import ConstantDump.Name.Normal
import ConstantDump.Name.Operator
import ConstantDump.Name.Template
import ConstantDump.OrderedMap
import ConstantDump.Outline.Basic
import ConstantDump.Outline.Fragment
import ConstantDump.Outline.Listing
import ConstantDump.Outline.Tree
import ConstantDump.Reader.Basic
import ConstantDump.Reader.Dump
import ConstantDump.Reader.Line
import ConstantDump.Reader.Single
import ConstantDump.Record.Basic
import ConstantDump.Record.Fields
import ConstantDump.Scope.Basic
import ConstantDump.Scope.Enumerations
import ConstantDump.Scope.Equality
import ConstantDump.Scope.Lookup
import ConstantDump.Scope.Update
import ConstantDump.SourceData
import ConstantDump.Text.Alphabetic
import ConstantDump.Text.Basic
import ConstantDump.Text.Blank
import ConstantDump.Text.Digits
import ConstantDump.Text.Folding
import ConstantDump.Text.GraphemeExtend
import ConstantDump.Text.Lines
import ConstantDump.Text.Numeric
import ConstantDump.Text.Quoted
import ConstantDump.Text.Ranges
import ConstantDump.Text.Unescape
import ConstantDump.Text.Unprintable
import ConstantDump.Text.Word
import ConstantDump.Value.Basic
import ConstantDump.Value.Display
import ConstantDump.Value.Equality
import ConstantDump.Proofs.Text.Trim
import ConstantDump.Proofs.Scope.Assign
import ConstantDump.Proofs.Bracket.Split
import ConstantDump.Proofs.Literal.Parenthesis
import ConstantDump.Proofs.Literal.Nesting
import ConstantDump.Proofs.Literal.RecordCall
import ConstantDump.Proofs.Scope.Store
import ConstantDump.Proofs.Line.Kinds
import ConstantDump.Proofs.Scope.Enumeration
import ConstantDump.Proofs.Reader.Line
import ConstantDump.Proofs.Reader.Standard
import ConstantDump.Proofs.Reader.OpenEnumeration
import ConstantDump.Proofs.Reader.Failure
import ConstantDump.Proofs.Scope.Obstacle
import ConstantDump.Proofs.Text.Erase
import ConstantDump.Proofs.Name.Scan
import ConstantDump.Proofs.Name.Marker
import ConstantDump.Proofs.Name.Numbered
import ConstantDump.Proofs.Scope.Value
import ConstantDump.Proofs.Reader.Numbering
import ConstantDump.Proofs.Name.Identifier
import ConstantDump.Proofs.Reader.Write
import ConstantDump.Proofs.Reader.SecondDump
import ConstantDump.Proofs.Name.Qualified
import ConstantDump.Proofs.Scope.Overwrite
import ConstantDump.Proofs.Line.Spelling
import ConstantDump.Proofs.Line.Written
import ConstantDump.Proofs.Reader.EnumerationBlock
import ConstantDump.Proofs.Encoding.Cut
import ConstantDump.Proofs.Encoding.CodeUnits
import ConstantDump.Proofs.Name.Separators
import ConstantDump.Proofs.Name.Component
import ConstantDump.Proofs.Bracket.Enclosed
import ConstantDump.Proofs.Literal.PlainCall
import ConstantDump.Proofs.Literal.CharacterString
import ConstantDump.Proofs.Text.Escape
import ConstantDump.Proofs.Text.Malformed
import ConstantDump.Proofs.Text.Quoted
import ConstantDump.Proofs.Literal.Integer
import ConstantDump.Proofs.Literal.Displayed
import ConstantDump.Proofs.Bracket.Spaced
import ConstantDump.Proofs.Bracket.Quotation
import ConstantDump.Proofs.Literal.Array
import ConstantDump.Proofs.Reader.Registration
import ConstantDump.Proofs.Name.Addressable
import ConstantDump.Proofs.Scope.Contents
import ConstantDump.Proofs.Scope.Listing
import ConstantDump.Proofs.Reader.PrintedPath
import ConstantDump.Proofs.Reader.LineNumber
import ConstantDump.Proofs.Reader.Lenient
import ConstantDump.Proofs.Record.FieldNames
import ConstantDump.Proofs.Record.StableNames
import ConstantDump.Proofs.Record.FreshName
import ConstantDump.Proofs.Reader.Concatenation
import ConstantDump.Proofs.Reader.Leaves
import ConstantDump.Proofs.Literal.Verbatim
import ConstantDump.Proofs.Reader.History
import ConstantDump.Proofs.Reader.SingleLine
import ConstantDump.Proofs.Bracket.Pieces
import ConstantDump.Proofs.Name.Spelling
import ConstantDump.Proofs.Scope.Order
import ConstantDump.Proofs.Scope.Independent
import ConstantDump.Proofs.Line.Named
import ConstantDump.Proofs.Literal.ClosingQuote
import ConstantDump.Proofs.Literal.OneLine
import ConstantDump.Proofs.Scope.OneLine
import ConstantDump.Proofs.Reader.Reads
import ConstantDump.Proofs.SourceData.Merge
import ConstantDump.Proofs.Reader.OneLine
import ConstantDump.Proofs.Outline.Place
import ConstantDump.Proofs.Outline.Rows
import ConstantDump.Proofs.Outline.Lines
import ConstantDump.Proofs.Outline.Reading
import ConstantDump.Proofs.Outline.Emission
import ConstantDump.Proofs.Scope.Modify
import ConstantDump.Proofs.Name.Template
import ConstantDump.Proofs.Reader.Flat
import ConstantDump.Proofs.Bracket.Offsets
import ConstantDump.Proofs.Bracket.Grammar
