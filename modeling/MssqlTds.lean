import MssqlTds.Connection.DataSource
import MssqlTds.Connection.ReturnedValues
import MssqlTds.Connection.StreamedValue
import MssqlTds.Datatypes.DecimalText
import MssqlTds.Datatypes.DecimalWire
import MssqlTds.Datatypes.DeclaredLength
import MssqlTds.Datatypes.NarrowPreflight
import MssqlTds.Datatypes.StringRoundTrip
import MssqlTds.Io.RowAgreement
import MssqlTds.Message.BulkLoadMetadata
import MssqlTds.Message.ParameterNames
import MssqlTds.Message.PlpEmitters
import MssqlTds.Message.SessionStatePayload
import MssqlTds.Odbc.ConnectionWire
import MssqlTds.Odbc.DaeTranscode
import MssqlTds.Odbc.MarkerConservation
import MssqlTds.Odbc.ProcedureNames
import MssqlTds.Odbc.Utf16Chunks
import MssqlTds.Transport.MessageRoundTrip
import MssqlTds.Transport.TlsWrites
