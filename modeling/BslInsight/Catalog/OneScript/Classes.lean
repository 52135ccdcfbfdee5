import BslInsight.Catalog.Common.Classes

/-!
# The classes of OneScript
-/

namespace BslInsight.Catalog.OneScript

def ownClasses : List (String × ClassRecord) := [
  classOfText "
  ЗаписьТекста/TextWriter
  - Запись текстового файла.
  Закрыть/Close
  - Закрывает файл.
  Записать/Write(Строка: Строка)
  - Записывает текст.
  ЗаписатьСтроку/WriteLine(Строка: Строка)
  - Записывает строку и перевод строки.
  Открыть/Open(ИмяФайла: Строка, Кодировка?: КодировкаТекста)
  - Открывает файл для записи.
  +По имени файла(ИмяФайла: Строка, Кодировка?: КодировкаТекста, Дописывать?: Булево)
  - Открывает файл для записи.",
  classOfText "
  Консоль/Console
  - Работа с консолью.
  Вывести/Write(Строка: Строка)
  - Выводит текст без перевода строки.
  ВывестиСтроку/WriteLine(Строка: Строка)
  - Выводит строку в консоль.
  Очистить/Clear
  - Очищает консоль.
  ПрочитатьСтроку/ReadLine: Строка
  - Читает строку из консоли.
  .ЦветТекста/TextColor: ЦветКонсоли
  - Цвет текста консоли.
  .ЦветФона/BackgroundColor: ЦветКонсоли
  - Цвет фона консоли.
  +По умолчанию
  - Создает пустой объект.",
  classOfText "
  Процесс/Process
  - Запущенный внешний процесс.
  Завершить/Stop
  - Принудительно завершает процесс.
  Запустить/Start
  - Запускает процесс.
  ОжидатьЗавершения/WaitForExit(Таймаут?: Число)
  - Ожидает завершения процесса.
  .Завершен/HasExited: Булево
  - Признак завершения процесса.
  .КодВозврата/ExitCode: Число
  - Код возврата процесса.
  .ПотокВывода/StdOut: ПотокВыводаТекста
  - Поток стандартного вывода.",
  classOfText "
  РегулярноеВыражение/Regex
  - Регулярное выражение .NET.
  Заменить/Replace(Строка: Строка, Замена: Строка): Строка
  - Заменяет совпадения.
  НайтиСовпадения/Matches(Строка: Строка): КоллекцияСовпаденийРегулярногоВыражения
  - Находит все совпадения.
  Разделить/Split(Строка: Строка): Массив
  - Разделяет строку по совпадениям.
  Совпадает/IsMatch(Строка: Строка, НачальнаяПозиция?: Число): Булево
  - Проверяет совпадение строки с выражением.
  .ИгнорироватьРегистр/IgnoreCase: Булево
  - Регистронезависимое сравнение.
  .Многострочный/Multiline: Булево
  - Многострочный режим.
  +По шаблону(Шаблон: Строка)
  - Создает регулярное выражение по шаблону.",
  classOfText "
  СистемнаяИнформация/SystemInfo
  - Сведения о системе.
  ПеременныеСреды/EnvironmentVariables: Соответствие
  - Возвращает переменные среды.
  .Версия/Version: Строка
  - Версия движка.
  .ВерсияОС/OSVersion: Строка
  - Версия операционной системы.
  .ИмяКомпьютера/MachineName: Строка
  - Имя компьютера.
  .ЭтоWindows/IsWindows: Булево
  - Признак ОС Windows.
  +По умолчанию
  - Создает пустой объект.",
  classOfText "
  Файл/File
  - Объект файловой системы.
  ПолучитьВремяИзменения/GetModificationTime: Дата
  - Получает время изменения файла.
  Размер/Size: Число
  - Получает размер файла в байтах.
  Существует/Exist: Булево
  - Проверяет существование файла или каталога.
  ЭтоКаталог/IsDirectory: Булево
  - Проверяет, является ли объект каталогом.
  ЭтоФайл/IsFile: Булево
  - Проверяет, является ли объект файлом.
  .Имя/Name: Строка
  - Имя файла с расширением.
  .ИмяБезРасширения/BaseName: Строка
  - Имя файла без расширения.
  .ПолноеИмя/FullName: Строка
  - Полный путь к файлу.
  .Путь/Path: Строка
  - Каталог файла.
  .Расширение/Extension: Строка
  - Расширение файла.
  +По имени файла(ИмяФайла: Строка)
  - Создает объект файла по пути.",
  classOfText "
  ЧтениеТекста/TextReader
  - Построчное чтение текстового файла.
  Закрыть/Close
  - Закрывает файл.
  Открыть/Open(ИмяФайла: Строка, Кодировка?: КодировкаТекста)
  - Открывает файл для чтения.
  Прочитать/Read(Количество?: Число): Строка
  - Читает текст.
  ПрочитатьСтроку/ReadLine: Строка
  - Читает одну строку.
  > Строка или Неопределено в конце файла.
  +По имени файла(ИмяФайла: Строка, Кодировка?: КодировкаТекста)
  - Открывает файл для чтения.
  +По умолчанию
  - Создает объект чтения без файла."]

def classes : List (String × ClassRecord) :=
  gather [Common.classes, ownClasses]

end BslInsight.Catalog.OneScript
