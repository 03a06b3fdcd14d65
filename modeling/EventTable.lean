import EventTable.AgeBand
import EventTable.Assembly
import EventTable.Calendar.Date
import EventTable.Calendar.Pattern
import EventTable.Calendar.Zone
import EventTable.Catalog
import EventTable.Cell
import EventTable.ColumnRequest
import EventTable.Columns.Attachment
import EventTable.Columns.Measure
import EventTable.Columns.Movement
import EventTable.Columns.Place
import EventTable.Columns.Sensor
import EventTable.Columns.StatusCode
import EventTable.Columns.Time
import EventTable.Columns.Vehicle
import EventTable.Context
import EventTable.Coordinate
import EventTable.Datum.Basic
import EventTable.Datum.Json
import EventTable.Datum.JsonReader
import EventTable.Datum.Record
import EventTable.Datum.TomlMoment
import EventTable.Datum.TomlReader
import EventTable.Datum.TomlRules
import EventTable.Datum.TomlTable
import EventTable.Device
import EventTable.Dictionary
import EventTable.Directory
import EventTable.Elapsed
import EventTable.Event
import EventTable.EventCatalog
import EventTable.Locale
import EventTable.Number.Exact
import EventTable.Number.Numeral
import EventTable.Number.Pattern
import EventTable.Number.Render
import EventTable.Number.Shortest
import EventTable.Quantity
import EventTable.Settings.Basic
import EventTable.Settings.Layers
import EventTable.Settings.Path
import EventTable.Settings.Reader
import EventTable.Status
import EventTable.Table
import EventTable.Text.Blank
import EventTable.Text.Cut
import EventTable.Text.Digits
import EventTable.Text.Percent
import EventTable.Text.Placeholder
import EventTable.Text.Upper
import EventTable.Proofs.Assembly
import EventTable.Proofs.SortOrder
import EventTable.Proofs.Sorting
import EventTable.Proofs.SortKeys
import EventTable.Proofs.Display
import EventTable.Proofs.SortRuns
import EventTable.Proofs.LookUps
import EventTable.Proofs.Arguments
import EventTable.Proofs.WholeDoubles
import EventTable.Proofs.RowNumbers
import EventTable.Proofs.Fillers
import EventTable.Proofs.Preferences
import EventTable.Proofs.Expansion
import EventTable.Proofs.Titles
import EventTable.Proofs.Registration
import EventTable.Proofs.FilledTitles
import EventTable.Proofs.Numerals
import EventTable.Proofs.StatusStyles
import EventTable.Proofs.Chronology
import EventTable.Proofs.VisibleTexts
import EventTable.Proofs.BlankCells
import EventTable.Proofs.DatePatterns
import EventTable.Proofs.Rounding
import EventTable.Proofs.Substitution
import EventTable.Proofs.SignedNumerals
import EventTable.Proofs.ZoneTexts
import EventTable.Proofs.RoundedUnits
import EventTable.Proofs.NumberTexts
import EventTable.Proofs.ShownNumbers
import EventTable.Proofs.ZoneLabels
import EventTable.Proofs.Pieces
import EventTable.Proofs.AgeBands
import EventTable.Proofs.TireReadings
import EventTable.Proofs.Quotients
import EventTable.Proofs.WholeParts
import EventTable.Proofs.LevelRanks
import EventTable.Proofs.Percentages
import EventTable.Proofs.Separators
import EventTable.Proofs.PropertyColumns
import EventTable.Proofs.CheckinColors
import EventTable.Proofs.RoundingIntervals
import EventTable.Proofs.DecimalRounding
import EventTable.Proofs.ShortestDecimals
import EventTable.Proofs.DecimalNumerals
import EventTable.Proofs.WrittenDoubles
import EventTable.Proofs.HoursInSeconds
import EventTable.Proofs.ElapsedProperties
import EventTable.Proofs.DigitFields
import EventTable.Proofs.CoordinateTexts
import EventTable.Proofs.SpanTexts
import EventTable.Proofs.JoinedPatterns
import EventTable.Proofs.PercentDecoding
import EventTable.Proofs.LinkParameters
import EventTable.Proofs.Dictionaries
import EventTable.Proofs.DottedKeys
import EventTable.Proofs.CellSteps
import EventTable.Proofs.DeviceHistories
import EventTable.Proofs.EqualCells
import EventTable.Proofs.StableSorts
import EventTable.Proofs.NumberPatterns
